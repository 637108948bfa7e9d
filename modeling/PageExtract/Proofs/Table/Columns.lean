/-
The column of a value below its header.

The border between two columns lies halfway between the centres of their headers, while a block is
placed by its left edge alone, moved to the right by the tolerance. So a value that is lined up with
a header need not be in the column of that header: it is there exactly if its moved edge has passed
the borders with the headers to the left, and no border with a header to the right.

* `columnIndexAt_cons`, `columnRanges_cover` — one column, and then the others; some column holds a
  position;
* `columnIndexAt_rangesFrom` — the position is in the column of a header;
* `Within`, `columnIndexAt_columnRanges` — what decides that among headers that lie apart;
* `columnTexts_aligned` — the column of a block that is lined up with a header;
* `columnTexts_narrow` — a value below a narrow header that is read from the next column.
-/
import Mathlib.Data.List.Perm.Basic
import Mathlib.Tactic.Linarith
import PageExtract.Proofs.Layout.Sort
import PageExtract.Proofs.Number.Exact
import PageExtract.Settings
import PageExtract.Table.Basic

namespace PageExtract

/-! ### Positions and columns -/

section

variable {ν : Type} [Numeric ν]

theorem rangesFrom_ne_nil (start : ν) (h : Block ν) (hs : List (Block ν)) :
    rangesFrom start (h :: hs) ≠ [] := by
  intro hnil
  cases hs with
  | nil => cases hnil
  | cons next hs => cases hnil

theorem length_rangesFrom (start : ν) (hs : List (Block ν)) :
    (rangesFrom start hs).length = hs.length := by
  induction hs generalizing start with
  | nil => rfl
  | cons h hs ih =>
    cases hs with
    | nil => rfl
    | cons next hs =>
      rw [rangesFrom, List.length_cons, ih]
      rfl

/-- The first of several columns holds a position that is not before it and before its border with
the next one. -/
theorem columnIndexAt_cons {start x : ν} (hx : start ≤ x) (h next : Block ν)
    (hs : List (Block ν)) :
    columnIndexAt x (rangesFrom start (h :: next :: hs)) =
      if x < columnBorder h next then some 0
      else (columnIndexAt x (rangesFrom (columnBorder h next) (next :: hs))).map (· + 1) := by
  rw [rangesFrom]
  -- The column is not the last one, as there are columns for the headers that follow.
  cases hrest : rangesFrom (columnBorder h next) (next :: hs) with
  | nil => exact (rangesFrom_ne_nil _ _ _ hrest).elim
  | cons r rs =>
    rw [columnIndexAt]
    · simp only [hx, true_and]
    · intro hnil
      cases hnil

/-- The column of some header holds a position that is not before the first one, if all borders can
be compared with it. -/
theorem exists_columnIndexAt {start x : ν} (hx : start ≤ x) (h : Block ν) (hs : List (Block ν))
    (hborders : ∀ g ∈ h :: hs, ∀ g' ∈ h :: hs,
      ¬ x < columnBorder g g' → columnBorder g g' ≤ x) :
    ∃ i < (h :: hs).length, columnIndexAt x (rangesFrom start (h :: hs)) = some i := by
  induction hs generalizing start h with
  | nil =>
    refine ⟨0, Nat.zero_lt_one, ?_⟩
    rw [rangesFrom, columnIndexAt, if_pos hx]
  | cons next hs ih =>
    rw [columnIndexAt_cons hx]
    by_cases hborder : x < columnBorder h next
    · exact ⟨0, Nat.succ_pos _, if_pos hborder⟩
    · have hreached := hborders h List.mem_cons_self next
        (List.mem_cons_of_mem h List.mem_cons_self) hborder
      obtain ⟨i, hi, hindex⟩ := ih hreached next fun g hg g' hg' =>
        hborders g (List.mem_cons_of_mem h hg) g' (List.mem_cons_of_mem h hg')
      refine ⟨i + 1, Nat.succ_lt_succ hi, ?_⟩
      rw [if_neg hborder, hindex]
      rfl

/-- If there is a header at all, some column holds a position on the page or behind it. -/
theorem columnRanges_cover {headers : List (Block ν)} (hne : headers ≠ []) {x : ν}
    (hx : 0.0 ≤ x) (hborders : ∀ g ∈ headers, ∀ g' ∈ headers,
      ¬ x < columnBorder g g' → columnBorder g g' ≤ x) :
    ∃ column < (columnRanges headers).length,
      columnIndexAt x (columnRanges headers) = some column := by
  have hperm := sortBy_perm centeredLeft headers
  rw [columnRanges, length_rangesFrom]
  cases hsorted : sortBy centeredLeft headers with
  | nil =>
    rw [hsorted] at hperm
    exact (hne hperm.symm.eq_nil).elim
  | cons g gs =>
    rw [hsorted] at hperm
    exact exists_columnIndexAt hx g gs fun k hk k' hk' =>
      hborders k (hperm.mem_iff.1 hk) k' (hperm.mem_iff.1 hk')

end

/-! ### Borders -/

theorem centerX_eq (b : Box Rat) : b.centerX = (b.x0 + b.x1) / 2 := by
  have htwo : (2.0 : Rat) = 2 := by norm_num
  rw [Box.centerX, htwo]

theorem columnBorder_eq (g h : Block Rat) :
    columnBorder g h = (g.box.centerX + h.box.centerX) / 2 := by
  have htwo : (2.0 : Rat) = 2 := by norm_num
  rw [columnBorder, htwo]

/-- The farther right two headers lie, the farther right lies their border. -/
theorem columnBorder_mono {g g' h h' : Block Rat} (hg : g.box.centerX ≤ g'.box.centerX)
    (hh : h.box.centerX ≤ h'.box.centerX) : columnBorder g h ≤ columnBorder g' h' := by
  rw [columnBorder_eq, columnBorder_eq]
  linarith

/-- The headers of columns stand in the order of their centres. -/
theorem pairwise_sortBy_centeredLeft (headers : List (Block Rat)) :
    (sortBy centeredLeft headers).Pairwise fun g h => g.box.centerX ≤ h.box.centerX :=
  pairwise_sortBy_number (fun h : Block Rat => h.box.centerX) headers

/-- A position is in the first of several columns exactly if it is before the first border. -/
theorem columnIndexAt_eq_zero {start x : Rat} (hx : start ≤ x) (h next : Block Rat)
    (hs : List (Block Rat)) :
    columnIndexAt x (rangesFrom start (h :: next :: hs)) = some 0 ↔ x < columnBorder h next := by
  rw [columnIndexAt_cons hx]
  by_cases hborder : x < columnBorder h next
  · rw [if_pos hborder]
    exact ⟨fun _ => hborder, fun _ => rfl⟩
  · rw [if_neg hborder]
    refine ⟨fun hindex => ?_, fun hlt => (hborder hlt).elim⟩
    obtain ⟨i, -, hi⟩ := Option.map_eq_some_iff.1 hindex
    exact (Nat.succ_ne_zero i hi).elim

/-- A position is in a later column exactly if it has reached the first border and is in that column
of those that begin there. -/
theorem columnIndexAt_eq_succ {start x : Rat} (hx : start ≤ x) (h next : Block Rat)
    (hs : List (Block Rat)) (i : Nat) :
    columnIndexAt x (rangesFrom start (h :: next :: hs)) = some (i + 1) ↔
      columnBorder h next ≤ x ∧
        columnIndexAt x (rangesFrom (columnBorder h next) (next :: hs)) = some i := by
  rw [columnIndexAt_cons hx]
  by_cases hborder : x < columnBorder h next
  · rw [if_pos hborder]
    refine ⟨fun hindex => ?_, fun hboth => (not_lt.2 hboth.1 hborder).elim⟩
    exact (Nat.succ_ne_zero i (Option.some.inj hindex).symm).elim
  · rw [if_neg hborder, and_iff_right (not_lt.1 hborder), Option.map_eq_some_iff]
    constructor
    · rintro ⟨j, hj, hi⟩
      rw [hj, Nat.succ.inj hi]
    · exact fun hindex => ⟨i, hindex, rfl⟩

/-- Of the borders of a header with those after it, the one with the next header comes first. -/
theorem forall_lt_columnBorder_iff {x : Rat} {h next : Block Rat} {after : List (Block Rat)}
    (hsorted : (next :: after).Pairwise fun g g' => g.box.centerX ≤ g'.box.centerX) :
    (∀ g ∈ next :: after, x < columnBorder h g) ↔ x < columnBorder h next := by
  constructor
  · intro hall
    exact hall next List.mem_cons_self
  · intro hlt g hg
    obtain rfl | hg := List.mem_cons.1 hg
    · exact hlt
    · exact hlt.trans_le (columnBorder_mono le_rfl ((List.pairwise_cons.1 hsorted).1 g hg))

/-- A position is in the column of a header exactly if it has reached the borders with all headers
before it, and no border with a header after it. -/
theorem columnIndexAt_rangesFrom {start x : Rat} (hx : start ≤ x) {before after : List (Block Rat)}
    {h : Block Rat}
    (hsorted : (before ++ h :: after).Pairwise fun g g' => g.box.centerX ≤ g'.box.centerX) :
    columnIndexAt x (rangesFrom start (before ++ h :: after)) = some before.length ↔
      (∀ g ∈ before, columnBorder g h ≤ x) ∧ ∀ g ∈ after, x < columnBorder h g := by
  induction before generalizing start with
  | nil =>
    rw [and_iff_right fun g hg => (List.not_mem_nil hg).elim]
    cases after with
    | nil => exact ⟨fun _ g hg => (List.not_mem_nil hg).elim, fun _ => if_pos hx⟩
    | cons next after =>
      rw [forall_lt_columnBorder_iff (List.pairwise_cons.1 hsorted).2]
      exact columnIndexAt_eq_zero hx h next after
  | cons k before ih =>
    obtain ⟨hk, htail⟩ := List.pairwise_cons.1 hsorted
    rw [List.forall_mem_cons, and_assoc]
    cases before with
    | nil =>
      refine (columnIndexAt_eq_succ hx k h after 0).trans (and_congr_right fun hborder => ?_)
      exact ih hborder htail
    | cons g before =>
      have hgh : g.box.centerX ≤ h.box.centerX :=
        (List.pairwise_cons.1 htail).1 h (List.mem_append_right before List.mem_cons_self)
      have hkg : k.box.centerX ≤ g.box.centerX := hk g List.mem_cons_self
      refine (columnIndexAt_eq_succ hx k g (before ++ h :: after) (before.length + 1)).trans ?_
      -- Both the border with `g` and the one with `h` are reached once the one of `g` and `h` is.
      constructor
      · rintro ⟨hborder, hindex⟩
        have hboth := (ih hborder htail).1 hindex
        have hreached := hboth.1 g List.mem_cons_self
        exact ⟨(columnBorder_mono hkg le_rfl).trans hreached, hboth⟩
      · rintro ⟨-, hboth⟩
        have hreached := hboth.1 g List.mem_cons_self
        have hborder := (columnBorder_mono hkg hgh).trans hreached
        exact ⟨hborder, (ih hborder htail).2 hboth⟩

/-! ### Headers that lie apart -/

/-- Whether a position lies between the borders that a header has with the headers beside it: it has
reached those with the headers to its left, and none with a header to its right. -/
def Within (headers : List (Block Rat)) (h : Block Rat) (x : Rat) : Prop :=
  ∀ g ∈ headers, (g.box.x1 < h.box.x0 → columnBorder g h ≤ x) ∧
    (h.box.x1 < g.box.x0 → x < columnBorder h g)

instance (headers : List (Block Rat)) (h : Block Rat) (x : Rat) : Decidable (Within headers h x) :=
  inferInstanceAs (Decidable (∀ g ∈ headers, (g.box.x1 < h.box.x0 → columnBorder g h ≤ x) ∧
    (h.box.x1 < g.box.x0 → x < columnBorder h g)))

/-- Of two headers that lie apart, the one whose centre comes first lies to the left. -/
theorem left_of_apart {g h : Block Rat} (hg : g.box.x0 ≤ g.box.x1) (hh : h.box.x0 ≤ h.box.x1)
    (hapart : g.box.x1 < h.box.x0 ∨ h.box.x1 < g.box.x0)
    (hcenter : g.box.centerX ≤ h.box.centerX) : g.box.x1 < h.box.x0 := by
  obtain hleft | hright := hapart
  · exact hleft
  · rw [centerX_eq, centerX_eq] at hcenter
    linarith

/-- The header of a column and those before and after it, among headers that lie apart. -/
theorem within_iff {before after : List (Block Rat)} {h : Block Rat} {x : Rat}
    (hunit : ∀ g ∈ before ++ h :: after, g.box.x0 ≤ g.box.x1)
    (hbefore : ∀ g ∈ before, g.box.x1 < h.box.x0) (hafter : ∀ g ∈ after, h.box.x1 < g.box.x0) :
    Within (before ++ h :: after) h x ↔
      (∀ g ∈ before, columnBorder g h ≤ x) ∧ ∀ g ∈ after, x < columnBorder h g := by
  have hh := hunit h (List.mem_append_right before List.mem_cons_self)
  constructor
  · intro hwithin
    refine ⟨fun g hg => ?_, fun g hg => ?_⟩
    · exact (hwithin g (List.mem_append_left _ hg)).1 (hbefore g hg)
    · exact (hwithin g (List.mem_append_right _ (List.mem_cons_of_mem h hg))).2 (hafter g hg)
  · rintro ⟨hleft, hright⟩ g hg
    have hwidth := hunit g hg
    rcases List.mem_append.1 hg with hg | hg
    · refine ⟨fun _ => hleft g hg, fun hlt => ?_⟩
      have hlt' := hbefore g hg
      linarith
    · obtain rfl | hg := List.mem_cons.1 hg
      · exact ⟨fun hlt => (not_lt.2 hh hlt).elim, fun hlt => (not_lt.2 hh hlt).elim⟩
      · refine ⟨fun hlt => ?_, fun _ => hright g hg⟩
        have hlt' := hafter g hg
        linarith

/-- A column and the headers before and after its own, among headers that lie apart. -/
theorem exists_column {headers : List (Block Rat)}
    (hunit : ∀ h ∈ headers, h.box.x0 ≤ h.box.x1)
    (hapart : headers.Pairwise fun g h => g.box.x1 < h.box.x0 ∨ h.box.x1 < g.box.x0)
    {h : Block Rat} (hh : h ∈ headers) :
    ∃ before after, sortBy centeredLeft headers = before ++ h :: after ∧
      (∀ g ∈ before, g.box.x1 < h.box.x0) ∧ ∀ g ∈ after, h.box.x1 < g.box.x0 := by
  have hperm := sortBy_perm centeredLeft headers
  obtain ⟨before, after, hcut⟩ := List.append_of_mem (hperm.mem_iff.2 hh)
  have hsorted := pairwise_sortBy_centeredLeft headers
  have hpairs := (hperm.pairwise_iff fun hgh => Or.symm hgh).2 hapart
  have hwidth : ∀ g ∈ before ++ h :: after, g.box.x0 ≤ g.box.x1 := by
    intro g hg
    exact hunit g (hperm.mem_iff.1 (hcut ▸ hg))
  have hown := hwidth h (List.mem_append_right before List.mem_cons_self)
  rw [hcut] at hsorted hpairs
  obtain ⟨-, hsorted, hsortedBefore⟩ := List.pairwise_append.1 hsorted
  obtain ⟨-, hpairs, hpairsBefore⟩ := List.pairwise_append.1 hpairs
  refine ⟨before, after, hcut, fun g hg => ?_, fun g hg => ?_⟩
  · exact left_of_apart (hwidth g (List.mem_append_left _ hg)) hown
      (hpairsBefore g hg h List.mem_cons_self) (hsortedBefore g hg h List.mem_cons_self)
  · exact left_of_apart hown (hwidth g (List.mem_append_right _ (List.mem_cons_of_mem h hg)))
      ((List.pairwise_cons.1 hpairs).1 g hg) ((List.pairwise_cons.1 hsorted).1 g hg)

/-- The borders beside a header do not depend on the order in which the headers are listed. -/
theorem within_perm {headers headers' : List (Block Rat)} (hperm : headers.Perm headers')
    (h : Block Rat) (x : Rat) : Within headers h x ↔ Within headers' h x := by
  unfold Within
  exact forall_congr' fun g => imp_congr_left hperm.mem_iff

/-- Among headers that lie apart, a position is in the column of a header exactly if it lies between
the borders beside that header. -/
theorem columnIndexAt_columnRanges {headers before after : List (Block Rat)} {h : Block Rat} {x : Rat}
    (hx : 0 ≤ x) (hunit : ∀ g ∈ headers, g.box.x0 ≤ g.box.x1)
    (hcut : sortBy centeredLeft headers = before ++ h :: after)
    (hbefore : ∀ g ∈ before, g.box.x1 < h.box.x0) (hafter : ∀ g ∈ after, h.box.x1 < g.box.x0) :
    columnIndexAt x (columnRanges headers) = some before.length ↔ Within headers h x := by
  have hperm : (before ++ h :: after).Perm headers := by
    rw [← hcut]
    exact sortBy_perm centeredLeft headers
  have hunit' : ∀ g ∈ before ++ h :: after, g.box.x0 ≤ g.box.x1 := by
    intro g hg
    exact hunit g (hperm.mem_iff.1 hg)
  have hsorted := pairwise_sortBy_centeredLeft headers
  rw [hcut] at hsorted
  have hstart : (0.0 : Rat) ≤ x := by rwa [Numeric.zero_literal]
  rw [columnRanges, hcut, columnIndexAt_rangesFrom hstart hsorted,
    ← within_iff hunit' hbefore hafter]
  exact within_perm hperm h x

/-- If there is a header at all, some column holds a position that is not negative. -/
theorem exists_columnIndexAt_columnRanges {headers : List (Block Rat)} {h : Block Rat}
    (hh : h ∈ headers) {x : Rat} (hx : 0 ≤ x) :
    ∃ column < (columnRanges headers).length,
      columnIndexAt x (columnRanges headers) = some column := by
  have hstart : (0.0 : Rat) ≤ x := by rwa [Numeric.zero_literal]
  exact columnRanges_cover (List.ne_nil_of_mem hh) hstart fun _ _ _ _ => not_lt.1

/-! ### Values below headers -/

/-- A block is in one column of every row. -/
theorem mem_cell_iff {ν : Type} [Numeric ν] {t : Table ν} {tolerance : ν} {b : Block ν}
    {column : Nat} (hcolumn : columnIndexAt (b.box.x0 + tolerance) t.columns = some column)
    (row : List (Block ν)) (i : Nat) :
    b ∈ t.cell i tolerance row ↔ b ∈ row ∧ i = column := by
  rw [Table.cell, List.mem_filter, hcolumn]
  refine and_congr_right fun _ => ?_
  rw [beq_iff_eq, Option.some.injEq]
  exact eq_comm

/-- The texts of the columns of a row of one block. -/
theorem columnTexts_single {columns : List (ColumnRange Rat)} {tolerance : Rat} {b : Block Rat}
    {column : Nat} (hcolumn : columnIndexAt (b.box.x0 + tolerance) columns = some column) (i : Nat) :
    (⟨columns, [[b]]⟩ : Table Rat).columnTexts i tolerance =
      [if i = column then b.text else ""] := by
  have hcell : (⟨columns, [[b]]⟩ : Table Rat).cell i tolerance [b] =
      if i = column then [b] else [] := by
    rw [Table.cell, List.filter_singleton, hcolumn]
    by_cases hi : i = column
    · rw [if_pos hi, hi]
      simp
    · have hne : (some column == some i) = false := by simpa using fun h => hi h.symm
      rw [if_neg hi, hne]
      rfl
  rw [Table.columnTexts, List.map_singleton, hcell]
  by_cases hi : i = column
  · rw [if_pos hi, if_pos hi, joinTexts]
    simp
  · rw [if_neg hi, if_neg hi]
    rfl

/-- Among headers that lie apart, a block that begins and ends where one of them does is in exactly
one column. It is that of its header exactly if its left edge, moved to the right by the usual
tolerance, lies between the borders that the header has with the headers beside it. -/
theorem columnTexts_aligned {headers : List (Block Rat)}
    (hunit : ∀ h ∈ headers, 0 ≤ h.box.x0 ∧ h.box.x0 ≤ h.box.x1 ∧ h.box.x1 ≤ 1)
    (hapart : headers.Pairwise fun g h => g.box.x1 < h.box.x0 ∨ h.box.x1 < g.box.x0)
    {h : Block Rat} (hh : h ∈ headers) {b : Block Rat}
    (haligned : b.box.x0 = h.box.x0 ∧ b.box.x1 = h.box.x1) :
    let tolerance := (Settings.standard : Settings Rat).columnTolerance
    ∃ own column, (sortBy centeredLeft headers)[own]? = some h ∧
      column < (columnRanges headers).length ∧
      (∀ i, (⟨columnRanges headers, [[b]]⟩ : Table Rat).columnTexts i tolerance =
        [if i = column then b.text else ""]) ∧
      (∀ t : Table Rat, t.columns = columnRanges headers → ∀ row i,
        b ∈ t.cell i tolerance row ↔ b ∈ row ∧ i = column) ∧
      (column = own ↔ Within headers h (b.box.x0 + tolerance)) := by
  intro tolerance
  have hwidth : ∀ h ∈ headers, h.box.x0 ≤ h.box.x1 := fun h hh => (hunit h hh).2.1
  obtain ⟨before, after, hcut, hbefore, hafter⟩ := exists_column hwidth hapart hh
  -- The moved edge is not before the first column, so that some column holds it.
  have hedge : 0 ≤ b.box.x0 + tolerance := by
    have hx0 := (hunit h hh).1
    have htolerance : tolerance = 3 / 100 := by
      show (0.03 : Rat) = 3 / 100
      norm_num
    rw [haligned.1, htolerance]
    linarith
  obtain ⟨column, hlt, hcolumn⟩ := exists_columnIndexAt_columnRanges hh hedge
  refine ⟨before.length, column, ?_, hlt, columnTexts_single hcolumn, ?_, ?_⟩
  · rw [hcut]
    simp
  · intro t ht row i
    exact mem_cell_iff (ht ▸ hcolumn) row i
  · rw [← columnIndexAt_columnRanges hedge hwidth hcut hbefore hafter, hcolumn, Option.some.injEq]

/-- A block on one line with others. -/
def lineBlock (id text : String) (x0 x1 y : Rat) : Block Rat :=
  ⟨id, text, ⟨x0, y, x1, y + 0.02, 0⟩, 99, none, false, .text⟩

/-- Two narrow headers close to each other, and one that stands alone. -/
def narrowHeaders : List (Block Rat) :=
  [lineBlock "a" "No" 0.1 0.11 0.1, lineBlock "b" "Qty" 0.12 0.13 0.1,
    lineBlock "c" "Price" 0.5 0.6 0.1]

/-- Below the header that stands alone a value is in the column of the header, below the first one
it is not. -/
theorem columnTexts_aligned_narrow :
    (∃ own column, (sortBy centeredLeft narrowHeaders)[own]? =
        some (lineBlock "c" "Price" 0.5 0.6 0.1) ∧
      (∀ i, (⟨columnRanges narrowHeaders, [[lineBlock "f" "12" 0.5 0.6 0.2]]⟩ :
        Table Rat).columnTexts i 0.03 = [if i = column then "12" else ""]) ∧ column = own) ∧
    ∃ own column, (sortBy centeredLeft narrowHeaders)[own]? =
        some (lineBlock "a" "No" 0.1 0.11 0.1) ∧
      (∀ i, (⟨columnRanges narrowHeaders, [[lineBlock "d" "7" 0.1 0.11 0.2]]⟩ :
        Table Rat).columnTexts i 0.03 = [if i = column then "7" else ""]) ∧ column ≠ own := by
  have hunit : ∀ h ∈ narrowHeaders, 0 ≤ h.box.x0 ∧ h.box.x0 ≤ h.box.x1 ∧ h.box.x1 ≤ 1 := by
    decide +kernel
  have hapart : narrowHeaders.Pairwise fun g h =>
      g.box.x1 < h.box.x0 ∨ h.box.x1 < g.box.x0 := by
    decide +kernel
  constructor
  · obtain ⟨own, column, hown, -, htexts, -, hsame⟩ := columnTexts_aligned hunit hapart
      (h := lineBlock "c" "Price" 0.5 0.6 0.1) (b := lineBlock "f" "12" 0.5 0.6 0.2)
      (by decide +kernel) ⟨rfl, rfl⟩
    exact ⟨own, column, hown, htexts, hsame.2 (by decide +kernel)⟩
  · obtain ⟨own, column, hown, -, htexts, -, hsame⟩ := columnTexts_aligned hunit hapart
      (h := lineBlock "a" "No" 0.1 0.11 0.1) (b := lineBlock "d" "7" 0.1 0.11 0.2)
      (by decide +kernel) ⟨rfl, rfl⟩
    exact ⟨own, column, hown, htexts, fun h => absurd (hsame.1 h) (by decide +kernel)⟩

/-- The headers lie apart, and a value with the extent of the first one is read from the column of
the second one. -/
theorem columnTexts_narrow :
    narrowHeaders.Pairwise (fun g h => g.box.x1 < h.box.x0 ∨ h.box.x1 < g.box.x0) ∧
    (columnRanges narrowHeaders).map (·.header) = ["No", "Qty", "Price"] ∧
    (⟨columnRanges narrowHeaders, [[lineBlock "d" "7" 0.1 0.11 0.2]]⟩ :
      Table Rat).columnTexts 0 0.03 = [""] ∧
    (⟨columnRanges narrowHeaders, [[lineBlock "d" "7" 0.1 0.11 0.2]]⟩ :
      Table Rat).columnTexts 1 0.03 = ["7"] := by
  decide +kernel

end PageExtract
