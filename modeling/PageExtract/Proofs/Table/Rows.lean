/-
Rows as a partition of blocks.

Grouping blocks by rows only arranges them. Without rounding, the blocks of the first row are those
that are level with the highest one, and what is left is grouped in the same way. So the rows are
divided by the tolerance, and no order of the blocks leads to other ones.

* `perm_splitRows` — what is split into rows, together with the row that was begun;
* `perm_groupRows` — the rows of some blocks hold each of them once;
* `rowTop`, `isLevel`, `groupRows_eq` — the highest centre, and the first row;
* `RowPartition`, `RowPartition.unique` — blocks divided into rows, which is possible in one way;
* `rowPartition_groupRows`, `groupRows_partition` — grouping divides blocks into rows, in whatever
  order they come.
-/
import Mathlib.Data.List.Perm.Basic
import Mathlib.Tactic.Linarith
import PageExtract.Proofs.Layout.Sort
import PageExtract.Proofs.Number.Exact
import PageExtract.Table.Grid

namespace PageExtract

section

variable {ν : Type} [Numeric ν]

theorem perm_rowInOrder (bs : List (Block ν)) : (rowInOrder bs).Perm bs := sortBy_perm leftOf bs

theorem perm_splitRows (tolerance top : ν) (row bs : List (Block ν)) :
    (splitRows tolerance top row bs).flatten.Perm (row ++ bs) := by
  have hrow : ∀ row : List (Block ν), (rowInOrder row.reverse).Perm row :=
    fun row => (perm_rowInOrder _).trans row.reverse_perm
  induction bs generalizing top row with
  | nil =>
    rw [splitRows, List.flatten_singleton, List.append_nil]
    exact hrow row
  | cons b bs ih =>
    rw [splitRows]
    split
    · -- The block joins the row, which is kept in reverse.
      exact (ih top (b :: row)).trans List.perm_middle.symm
    · rw [List.flatten_cons]
      exact (hrow row).append (ih b.box.centerY [b])

/-- Grouping loses no block and repeats none. -/
theorem perm_groupRows (tolerance : ν) (bs : List (Block ν)) :
    (groupRows tolerance bs).flatten.Perm bs := by
  have hsorted := sortBy_perm higher bs
  rw [groupRows]
  cases hcut : sortBy higher bs with
  | nil =>
    rw [hcut] at hsorted
    exact hsorted
  | cons b rest =>
    rw [hcut] at hsorted
    exact (perm_splitRows tolerance b.box.centerY [b] rest).trans hsorted

end

/-! ### Order -/

theorem pairwise_rowInOrder (bs : List (Block Rat)) :
    (rowInOrder bs).Pairwise fun a b => a.box.x0 ≤ b.box.x0 :=
  pairwise_sortBy_number (fun b : Block Rat => b.box.x0) bs

theorem pairwise_sortBy_higher (bs : List (Block Rat)) :
    (sortBy higher bs).Pairwise fun a b => a.box.centerY ≤ b.box.centerY :=
  pairwise_sortBy_number (fun b : Block Rat => b.box.centerY) bs

theorem sortBy_higher_filter (p : Block Rat → Bool) (bs : List (Block Rat)) :
    sortBy higher (bs.filter p) = (sortBy higher bs).filter p :=
  sortBy_filter (not_less_trans fun b : Block Rat => b.box.centerY)
    (less_asymm fun b : Block Rat => b.box.centerY) p bs

/-- What stands in order stays as it is. -/
theorem sortBy_higher_of_pairwise {bs : List (Block Rat)}
    (h : bs.Pairwise fun a b => a.box.centerY ≤ b.box.centerY) : sortBy higher bs = bs := by
  induction bs with
  | nil => rfl
  | cons b bs ih =>
    obtain ⟨hb, hbs⟩ := List.pairwise_cons.1 h
    rw [sortBy, ih hbs]
    refine insertBy_of_forall fun c hc => ?_
    simpa [higher] using hb c hc

/-! ### The top of a row -/

/-- The height of the highest centre of some blocks. -/
def rowTop {ν : Type} [Numeric ν] : List (Block ν) → ν
  | [] => 0.0
  | b :: bs => Numeric.least b.box.centerY (bs.map (·.box.centerY))

section

variable {bs : List (Block Rat)}

theorem le_rowTop_iff (hne : bs ≠ []) (y : Rat) :
    y ≤ rowTop bs ↔ ∀ b ∈ bs, y ≤ b.box.centerY := by
  cases bs with
  | nil => exact (hne rfl).elim
  | cons b bs => simp [rowTop, Numeric.le_least_iff]

theorem rowTop_le {b : Block Rat} (hb : b ∈ bs) : rowTop bs ≤ b.box.centerY :=
  (le_rowTop_iff (List.ne_nil_of_mem hb) _).1 le_rfl b hb

theorem exists_rowTop (hne : bs ≠ []) : ∃ b ∈ bs, b.box.centerY = rowTop bs := by
  cases bs with
  | nil => exact (hne rfl).elim
  | cons b bs =>
    have hmem := Numeric.least_mem b.box.centerY (bs.map (·.box.centerY))
    rw [← List.map_cons (f := fun b : Block Rat => b.box.centerY)] at hmem
    exact List.mem_map.1 hmem

theorem rowTop_eq {b : Block Rat} (hb : b ∈ bs) (hle : ∀ c ∈ bs, b.box.centerY ≤ c.box.centerY) :
    rowTop bs = b.box.centerY :=
  le_antisymm (rowTop_le hb) ((le_rowTop_iff (List.ne_nil_of_mem hb) _).2 hle)

/-- A part with a highest block is as high as the whole. -/
theorem rowTop_filter {p : Block Rat → Bool} {b : Block Rat} (hb : b ∈ bs)
    (htop : b.box.centerY = rowTop bs) (hp : p b = true) : rowTop (bs.filter p) = rowTop bs := by
  rw [← htop]
  refine rowTop_eq (List.mem_filter.2 ⟨hb, hp⟩) fun c hc => ?_
  rw [htop]
  exact rowTop_le (List.mem_filter.1 hc).1

end

/-! ### Row by row -/

/-- Whether a centre is at most `tolerance` below a height. -/
def isLevel (tolerance top : Rat) (b : Block Rat) : Bool := b.box.centerY ≤ top + tolerance

theorem isLevel_iff {tolerance top : Rat} {b : Block Rat} :
    isLevel tolerance top b = true ↔ b.box.centerY ≤ top + tolerance := decide_eq_true_iff

theorem groupRows_of_pairwise (tolerance : Rat) {b : Block Rat} {bs : List (Block Rat)}
    (h : (b :: bs).Pairwise fun a b => a.box.centerY ≤ b.box.centerY) :
    groupRows tolerance (b :: bs) = splitRows tolerance b.box.centerY [b] bs := by
  rw [groupRows, sortBy_higher_of_pairwise h]

theorem groupRows_sortBy (tolerance : Rat) (bs : List (Block Rat)) :
    groupRows tolerance (sortBy higher bs) = groupRows tolerance bs := by
  rw [groupRows, groupRows, sortBy_higher_of_pairwise (pairwise_sortBy_higher bs)]

/-- What is level with a row that was begun joins it, and the rest begins with a row of its own. -/
theorem splitRows_eq (tolerance : Rat) {top : Rat} (row : List (Block Rat)) {bs : List (Block Rat)}
    (hsorted : bs.Pairwise fun a b => a.box.centerY ≤ b.box.centerY)
    (htop : ∀ b ∈ bs, top ≤ b.box.centerY) :
    splitRows tolerance top row bs =
      rowInOrder (row.reverse ++ bs.filter (isLevel tolerance top)) ::
        groupRows tolerance (bs.filter fun b => !isLevel tolerance top b) := by
  induction bs generalizing row with
  | nil => simp [splitRows, groupRows, sortBy]
  | cons b bs ih =>
    obtain ⟨hb, hbs⟩ := List.pairwise_cons.1 hsorted
    have hdistance : Numeric.abs (b.box.centerY - top) ≤ tolerance ↔
        b.box.centerY ≤ top + tolerance := by
      rw [Numeric.abs_eq_abs, abs_of_nonneg (sub_nonneg.2 (htop b List.mem_cons_self)),
        sub_le_iff_le_add']
    rw [splitRows]
    by_cases hlevel : b.box.centerY ≤ top + tolerance
    · have htrue : isLevel tolerance top b = true := isLevel_iff.2 hlevel
      have hrest : ∀ c ∈ bs, top ≤ c.box.centerY := fun c hc => htop c (List.mem_cons_of_mem b hc)
      rw [if_pos (hdistance.2 hlevel), ih (b :: row) hbs hrest]
      simp [htrue]
    · -- Nothing that follows is level with the row either.
      have hbelow : ∀ c ∈ b :: bs, isLevel tolerance top c = false := by
        intro c hc
        rw [← Bool.not_eq_true, isLevel_iff, not_le]
        obtain rfl | hc := List.mem_cons.1 hc
        · exact not_le.1 hlevel
        · exact (not_le.1 hlevel).trans_le (hb c hc)
      rw [if_neg (mt hdistance.1 hlevel), List.filter_eq_nil_iff.2 (by simpa using hbelow),
        List.filter_eq_self.2 (by simpa using hbelow), List.append_nil,
        groupRows_of_pairwise tolerance hsorted]

/-- The first row has the blocks that are level with the highest one, and the others are grouped in
the same way. -/
theorem groupRows_eq {tolerance : Rat} (htolerance : 0 ≤ tolerance) {bs : List (Block Rat)}
    (hne : bs ≠ []) :
    groupRows tolerance bs =
      rowInOrder (sortBy higher (bs.filter (isLevel tolerance (rowTop bs)))) ::
        groupRows tolerance (bs.filter fun b => !isLevel tolerance (rowTop bs) b) := by
  have hperm := sortBy_perm higher bs
  have hsorted := pairwise_sortBy_higher bs
  rw [← groupRows_sortBy, ← groupRows_sortBy tolerance (bs.filter _), sortBy_higher_filter,
    sortBy_higher_filter]
  cases hcut : sortBy higher bs with
  | nil =>
    rw [hcut] at hperm
    exact (hne hperm.symm.eq_nil).elim
  | cons b rest =>
    rw [hcut] at hperm hsorted
    obtain ⟨hb, hrest⟩ := List.pairwise_cons.1 hsorted
    have htop : rowTop bs = b.box.centerY := by
      refine rowTop_eq (hperm.mem_iff.1 List.mem_cons_self) fun c hc => ?_
      obtain rfl | hc := List.mem_cons.1 (hperm.mem_iff.2 hc)
      · exact le_rfl
      · exact hb c hc
    have hlevel : isLevel tolerance b.box.centerY b = true := isLevel_iff.2 (by linarith)
    rw [htop, groupRows_of_pairwise tolerance hsorted, splitRows_eq tolerance [b] hrest hb]
    simp [hlevel]

/-! ### Rows as a partition -/

/-- Rows that some blocks are divided into: none is empty, each goes from left to right and is at
most `tolerance` high, and they follow each other from top to bottom, their tops more than
`tolerance` apart. -/
structure RowPartition (tolerance : Rat) (bs : List (Block Rat)) (rows : List (List (Block Rat))) :
    Prop where
  perm : rows.flatten.Perm bs
  ne_nil : ∀ row ∈ rows, row ≠ []
  leftToRight : ∀ row ∈ rows, row.Pairwise fun a b => a.box.x0 ≤ b.box.x0
  level : ∀ row ∈ rows, ∀ b ∈ row, b.box.centerY ≤ rowTop row + tolerance
  topToBottom : rows.Pairwise fun row later =>
    rowTop row + tolerance < rowTop later ∧
      ∀ a ∈ row, ∀ b ∈ later, a.box.centerY < b.box.centerY

namespace RowPartition

variable {tolerance : Rat} {bs bs' row : List (Block Rat)} {rows rows' : List (List (Block Rat))}

theorem nil (tolerance : Rat) : RowPartition tolerance [] [] where
  perm := .refl []
  ne_nil := List.forall_mem_nil _
  leftToRight := List.forall_mem_nil _
  level := List.forall_mem_nil _
  topToBottom := .nil

theorem of_perm (hbs : bs.Perm bs') (h : RowPartition tolerance bs rows) :
    RowPartition tolerance bs' rows := { h with perm := h.perm.trans hbs }

/-- A row above all others. -/
theorem cons (hne : row ≠ []) (hsorted : row.Pairwise fun a b => a.box.x0 ≤ b.box.x0)
    (hlevel : ∀ b ∈ row, b.box.centerY ≤ rowTop row + tolerance)
    (hbelow : ∀ b ∈ bs, rowTop row + tolerance < b.box.centerY)
    (h : RowPartition tolerance bs rows) : RowPartition tolerance (row ++ bs) (row :: rows) where
  perm := h.perm.append_left row
  ne_nil := List.forall_mem_cons.2 ⟨hne, h.ne_nil⟩
  leftToRight := List.forall_mem_cons.2 ⟨hsorted, h.leftToRight⟩
  level := List.forall_mem_cons.2 ⟨hlevel, h.level⟩
  topToBottom := by
    refine List.pairwise_cons.2 ⟨fun later hlater => ?_, h.topToBottom⟩
    have hmem : ∀ b ∈ later, b ∈ bs := fun b hb =>
      h.perm.mem_iff.1 (List.mem_flatten_of_mem hlater hb)
    constructor
    · obtain ⟨b, hb, htop⟩ := exists_rowTop (h.ne_nil later hlater)
      exact htop ▸ hbelow b (hmem b hb)
    · exact fun a ha b hb => (hlevel a ha).trans_lt (hbelow b (hmem b hb))

/-- What is below the first row. -/
theorem tail (h : RowPartition tolerance bs (row :: rows)) :
    RowPartition tolerance rows.flatten rows where
  perm := .refl _
  ne_nil := (List.forall_mem_cons.1 h.ne_nil).2
  leftToRight := (List.forall_mem_cons.1 h.leftToRight).2
  level := (List.forall_mem_cons.1 h.level).2
  topToBottom := (List.pairwise_cons.1 h.topToBottom).2

theorem rowTop_lt (h : RowPartition tolerance bs (row :: rows)) {b : Block Rat}
    (hb : b ∈ rows.flatten) : rowTop row + tolerance < b.box.centerY := by
  obtain ⟨later, hlater, hb⟩ := List.mem_flatten.1 hb
  exact ((List.pairwise_cons.1 h.topToBottom).1 later hlater).1.trans_le (rowTop_le hb)

/-- The top of the first row is that of all blocks. -/
theorem rowTop_eq (htolerance : 0 ≤ tolerance) (h : RowPartition tolerance bs (row :: rows)) :
    rowTop bs = rowTop row := by
  obtain ⟨b, hb, htop⟩ := exists_rowTop (h.ne_nil row List.mem_cons_self)
  have hmem : ∀ c, c ∈ bs ↔ c ∈ row ∨ c ∈ rows.flatten := fun c => by
    rw [← h.perm.mem_iff, List.flatten_cons, List.mem_append]
  rw [← htop]
  refine PageExtract.rowTop_eq ((hmem b).2 (.inl hb)) fun c hc => ?_
  rw [htop]
  obtain hc | hc := (hmem c).1 hc
  · exact rowTop_le hc
  · have hlt := h.rowTop_lt hc
    linarith

/-- The first row has the blocks that are level with the top, and the other rows have the others. -/
theorem filter_isLevel (htolerance : 0 ≤ tolerance)
    (h : RowPartition tolerance bs (row :: rows)) :
    (bs.filter (isLevel tolerance (rowTop bs))).Perm row ∧
      (bs.filter fun b => !isLevel tolerance (rowTop bs) b).Perm rows.flatten := by
  have hrow : ∀ b ∈ row, isLevel tolerance (rowTop bs) b = true := by
    intro b hb
    rw [isLevel_iff, h.rowTop_eq htolerance]
    exact h.level row List.mem_cons_self b hb
  have hrows : ∀ b ∈ rows.flatten, isLevel tolerance (rowTop bs) b = false := by
    intro b hb
    rw [← Bool.not_eq_true, isLevel_iff, h.rowTop_eq htolerance, not_le]
    exact h.rowTop_lt hb
  have hperm : bs.Perm (row ++ rows.flatten) := h.perm.symm
  constructor
  · refine (hperm.filter _).trans ?_
    rw [List.filter_append, List.filter_eq_self.2 hrow,
      List.filter_eq_nil_iff.2 (by simpa using hrows), List.append_nil]
  · refine (hperm.filter _).trans ?_
    rw [List.filter_append, List.filter_eq_nil_iff.2 (by simpa using hrow),
      List.filter_eq_self.2 (by simpa using hrows), List.nil_append]

/-- Blocks are divided into rows in one way only, up to the order of blocks that begin at one
place. -/
theorem unique (htolerance : 0 ≤ tolerance) (hbs : bs.Perm bs')
    (h : RowPartition tolerance bs rows) (h' : RowPartition tolerance bs' rows') :
    List.Forall₂ List.Perm rows rows' := by
  induction rows generalizing bs bs' rows' with
  | nil =>
    cases rows' with
    | nil => exact .nil
    | cons row' rows' =>
      have hempty : (row' :: rows').flatten = [] :=
        (h'.perm.trans (hbs.symm.trans h.perm.symm)).eq_nil
      exact (h'.ne_nil row' List.mem_cons_self (List.append_eq_nil_iff.1 hempty).1).elim
  | cons row rows ih =>
    cases rows' with
    | nil =>
      have hempty : (row :: rows).flatten = [] := (h.perm.trans (hbs.trans h'.perm.symm)).eq_nil
      exact (h.ne_nil row List.mem_cons_self (List.append_eq_nil_iff.1 hempty).1).elim
    | cons row' rows' =>
      -- Both first rows have the blocks that are level with the same top.
      have htop : rowTop bs = rowTop bs' := by
        have hne : bs ≠ [] := by
          rintro rfl
          exact h.ne_nil row List.mem_cons_self (List.append_eq_nil_iff.1 h.perm.eq_nil).1
        obtain ⟨b, hb, hb'⟩ := exists_rowTop hne
        rw [← hb']
        refine (PageExtract.rowTop_eq (hbs.mem_iff.1 hb) fun c hc => ?_).symm
        exact hb' ▸ rowTop_le (hbs.mem_iff.2 hc)
      obtain ⟨hrow, hrows⟩ := h.filter_isLevel htolerance
      obtain ⟨hrow', hrows'⟩ := h'.filter_isLevel htolerance
      rw [← htop] at hrow' hrows'
      refine .cons (hrow.symm.trans ((hbs.filter _).trans hrow')) ?_
      exact ih (hrows.symm.trans ((hbs.filter _).trans hrows')) h.tail h'.tail

end RowPartition

/-- Grouping divides blocks into rows. -/
theorem rowPartition_groupRows {tolerance : Rat} (htolerance : 0 ≤ tolerance)
    (bs : List (Block Rat)) : RowPartition tolerance bs (groupRows tolerance bs) := by
  induction hn : bs.length using Nat.strong_induction_on generalizing bs with
  | _ n ih =>
    by_cases hne : bs = []
    · subst hne
      exact .nil tolerance
    · rw [groupRows_eq htolerance hne]
      set row := rowInOrder (sortBy higher (bs.filter (isLevel tolerance (rowTop bs)))) with hrow
      set rest := bs.filter fun b => !isLevel tolerance (rowTop bs) b with hrest
      have hperm : row.Perm (bs.filter (isLevel tolerance (rowTop bs))) :=
        (perm_rowInOrder _).trans (sortBy_perm higher _)
      have hmem : ∀ b, b ∈ row ↔ b ∈ bs ∧ b.box.centerY ≤ rowTop bs + tolerance := fun b => by
        rw [hperm.mem_iff, List.mem_filter, isLevel_iff]
      -- The highest block is in the row, so that fewer blocks are left.
      obtain ⟨b, hb, hbtop⟩ := exists_rowTop hne
      have hbrow : b ∈ row := (hmem b).2 ⟨hb, by linarith⟩
      have htop : rowTop row = rowTop bs := by
        rw [← hbtop]
        refine rowTop_eq hbrow fun c hc => ?_
        rw [hbtop]
        exact rowTop_le ((hmem c).1 hc).1
      have hall : (row ++ rest).Perm bs :=
        (hperm.append_right rest).trans (List.filter_append_perm _ bs)
      have hlt : rest.length < n := by
        have hlength := hall.length_eq
        have hpos := List.length_pos_of_mem hbrow
        rw [List.length_append, hn] at hlength
        omega
      refine (RowPartition.cons (List.ne_nil_of_mem hbrow) (pairwise_rowInOrder _)
        (fun c hc => ?_) (fun c hc => ?_) (ih rest.length hlt rest rfl)).of_perm hall
      · exact htop ▸ ((hmem c).1 hc).2
      · have hnot := (List.mem_filter.1 hc).2
        rw [Bool.not_eq_true', ← Bool.not_eq_true, isLevel_iff, not_le] at hnot
        exact htop ▸ hnot

/-- Grouping divides blocks into rows, and the order in which they come does not change which of
them share a row. -/
theorem groupRows_partition {tolerance : Rat} (htolerance : 0 ≤ tolerance)
    (bs : List (Block Rat)) :
    RowPartition tolerance bs (groupRows tolerance bs) ∧
      ∀ bs', bs.Perm bs' →
        List.Forall₂ List.Perm (groupRows tolerance bs) (groupRows tolerance bs') := by
  have hpartition := rowPartition_groupRows htolerance
  exact ⟨hpartition bs, fun bs' hbs => (hpartition bs).unique htolerance hbs (hpartition bs')⟩

/-- A word on a page. -/
def wordAt (text : String) (x y : Rat) : Block Rat :=
  ⟨text, text, ⟨x, y, x + 0.05, y + 0.02, 0⟩, 99, none, false, .text⟩

/-- Words of which each is a little lower than the one to its right. -/
def stairs : List (Block Rat) :=
  [wordAt "low" 0.1 0.22, wordAt "middle" 0.2 0.21, wordAt "high" 0.3 0.2]

/-- The word in the middle is level with both others, and these are not level with each other. -/
theorem groupRows_partition_stairs :
    RowPartition 0.015 stairs (groupRows 0.015 stairs) ∧
      List.Forall₂ List.Perm (groupRows 0.015 stairs) (groupRows 0.015 stairs.reverse) ∧
      (groupRows 0.015 stairs).map (·.map (·.id)) = [["middle", "high"], ["low"]] := by
  have htolerance : (0 : Rat) ≤ 0.015 := by norm_num
  obtain ⟨hpartition, hsame⟩ := groupRows_partition htolerance stairs
  exact ⟨hpartition, hsame _ (List.reverse_perm stairs).symm, by decide +kernel⟩

end PageExtract
