/-
The gaps between the cells of a line.

A line is cut where the gap between an item and the next one is wide. Only the item just before is
looked at, and an earlier item can end further to the right: a mark that is set over a long run of
text ends inside of it, and the line is cut behind the mark although the run goes on. So cells lie
apart exactly if no item reaches over a gap at which its line is cut:

* `isChain_cellsOf`, `not_wide_of_mem_cellsOf` — the gaps at the cuts and within cells;
* `Parted`, `parted_iff_edges`, `pairwise_parted` — cells with a gap between all of their items,
  neighbours and others;
* `NoOverhang`, `isChain_parted_iff` — the lines whose cells lie apart;
* `noOverhang_of_pairwise` — items that end in the order in which they begin;
* `Beside`, `pairwise_beside` — the blocks of cells that lie apart;
* `cellsOf_parted_iff`, `cellsOf_overhang` — the cells and the blocks of a line, and a line whose
  blocks overlap.
-/
import Mathlib.Algebra.Order.Field.Basic
import Mathlib.Tactic.Linarith
import PageExtract.Proofs.Pdf.Blocks

namespace PageExtract

/-! ### Cuts -/

section

variable {ν : Type} [Numeric ν]

/-- Where a line is cut, the gap after the item before is wide. -/
theorem isChain_cellsOf (line : List (PlacedItem ν)) :
    (cellsOf line).IsChain fun a b => ∃ (ha : a ≠ []) (hb : b ≠ []),
      columnGap line < (b.head hb).x - (a.getLast ha).right := by
  rw [cellsOf_eq_splitBy]
  refine (List.isChain_getLast_head_splitBy _ line).imp ?_
  rintro a b ⟨ha, hb, hcut⟩
  refine ⟨ha, hb, ?_⟩
  rw [Bool.not_eq_false'] at hcut
  exact of_decide_eq_true hcut

/-- Within a cell no gap is wide. -/
theorem not_wide_of_mem_cellsOf {line u v : List (PlacedItem ν)} {i j : PlacedItem ν}
    (h : u ++ i :: j :: v ∈ cellsOf line) : ¬ columnGap line < j.x - i.right := by
  rw [cellsOf_eq_splitBy] at h
  have hrel := List.isChain_iff_forall_rel_of_append_cons_cons.1 (List.isChain_of_mem_splitBy h) rfl
  rw [Bool.not_eq_true'] at hrel
  exact of_decide_eq_false hrel

end

/-! ### Cells that lie apart -/

/-- Each item of one cell ends more than `gap` before each item of another one begins. -/
def Parted (gap : Rat) (a b : List (PlacedItem Rat)) : Prop :=
  ∀ i ∈ a, ∀ j ∈ b, gap < j.x - i.right

instance (gap : Rat) (a b : List (PlacedItem Rat)) : Decidable (Parted gap a b) :=
  inferInstanceAs (Decidable (∀ i ∈ a, ∀ j ∈ b, gap < j.x - i.right))

/-- Items that begin in the order of their list. -/
def FromLeft (items : List (PlacedItem Rat)) : Prop := items.Pairwise fun i j => i.x ≤ j.x

instance (items : List (PlacedItem Rat)) : Decidable (FromLeft items) :=
  inferInstanceAs (Decidable (items.Pairwise fun i j => i.x ≤ j.x))

variable {gap : Rat}

/-- Cells lie apart if the edges of their blocks do: the greatest right end of the one and the least
left end of the other. -/
theorem parted_iff_edges {i j : PlacedItem Rat} {is js : List (PlacedItem Rat)} :
    Parted gap (i :: is) (j :: js) ↔ gap < Numeric.least j.x (js.map (·.x)) -
      Numeric.greatest i.right (is.map PlacedItem.right) := by
  constructor
  · intro h
    obtain ⟨k, hk, hleft⟩ : ∃ k ∈ j :: js, k.x = Numeric.least j.x (js.map (·.x)) :=
      List.mem_map.1 (Numeric.least_mem j.x (js.map (·.x)))
    obtain ⟨k', hk', hright⟩ : ∃ k ∈ i :: is,
        k.right = Numeric.greatest i.right (is.map PlacedItem.right) :=
      List.mem_map.1 (Numeric.greatest_mem i.right (is.map PlacedItem.right))
    rw [← hleft, ← hright]
    exact h k' hk' k hk
  · intro h k hk k' hk'
    have hleft := Numeric.le_least_iff.1 le_rfl k'.x (List.mem_map_of_mem hk')
    have hright := Numeric.greatest_le_iff.1 le_rfl k.right (List.mem_map_of_mem hk)
    linarith

section

variable {cells : List (List (PlacedItem Rat))} {b c : List (PlacedItem Rat)}

/-- Nothing begins before the first item. -/
theorem FromLeft.head_le (h : FromLeft (b :: cells).flatten) (hb : b ≠ []) (hc : c ∈ b :: cells)
    {j : PlacedItem Rat} (hj : j ∈ c) : (b.head hb).x ≤ j.x := by
  cases b with
  | nil => exact absurd rfl hb
  | cons i b =>
    have hmem : j ∈ ((i :: b) :: cells).flatten := List.mem_flatten_of_mem hc hj
    rw [List.flatten_cons, List.cons_append] at h hmem
    obtain rfl | hmem := List.mem_cons.1 hmem
    · exact le_rfl
    · exact List.rel_of_pairwise_cons h hmem

theorem FromLeft.drop (as : List (List (PlacedItem Rat))) {bs : List (List (PlacedItem Rat))}
    (h : FromLeft (as ++ bs).flatten) :
    FromLeft bs.flatten := by
  rw [List.flatten_append] at h
  exact (List.pairwise_append.1 h).2.1

/-- If neighbours lie apart, so do all cells of a line. -/
theorem pairwise_parted (hsorted : FromLeft cells.flatten) (hne : ∀ c ∈ cells, c ≠ [])
    (h : cells.IsChain (Parted gap)) : cells.Pairwise (Parted gap) := by
  induction cells with
  | nil => exact .nil
  | cons a cells ih =>
    have hrest : FromLeft cells.flatten := hsorted.drop [a]
    refine List.pairwise_cons.2 ⟨fun c hc => ?_,
      ih hrest (fun c hc => hne c (List.mem_cons_of_mem a hc)) h.tail⟩
    cases cells with
    | nil => cases hc
    | cons b cells =>
      -- What begins further to the right than the neighbour lies apart as well.
      have hb : b ≠ [] := hne b (List.mem_cons_of_mem a List.mem_cons_self)
      have hab : Parted gap a b := (List.isChain_cons_cons.1 h).1
      intro i hi j hj
      have hfirst := hab i hi (b.head hb) (List.head_mem hb)
      have hle := hrest.head_le hb hc hj
      linarith

end

/-! ### Lines whose cells lie apart -/

/-- No item of a line reaches over a wide gap that comes after a later item. -/
def NoOverhang (gap : Rat) (line : List (PlacedItem Rat)) : Prop :=
  ∀ before i j after, line = before ++ i :: j :: after → gap < j.x - i.right →
    ∀ k ∈ before, gap < j.x - k.right

/-- Nothing reaches over a gap if items end in the order in which they begin. -/
theorem noOverhang_of_pairwise {line : List (PlacedItem Rat)}
    (h : line.Pairwise fun i j => i.right ≤ j.right) : NoOverhang gap line := by
  rintro before i j after rfl hwide k hk
  have hle : k.right ≤ i.right := (List.pairwise_append.1 h).2.2 k hk i List.mem_cons_self
  linarith

section

variable {line : List (PlacedItem Rat)}

/-- Items on either side of a wide gap are in different cells, and so is all that comes before. -/
theorem exists_cut {before after : List (PlacedItem Rat)} {i j : PlacedItem Rat}
    (hline : line = before ++ i :: j :: after) (hwide : columnGap line < j.x - i.right) :
    ∃ as bs, cellsOf line = as ++ bs ∧ as.flatten = before ++ [i] ∧ j ∈ bs.flatten := by
  have hflatten : (cellsOf line).flatten = (before ++ [i]) ++ (j :: after) := by
    rw [flatten_cellsOf, hline, List.append_assoc]
    rfl
  obtain ⟨as, bs, hcells, hleft, hright⟩ | ⟨as, u, c, cs, bs, hcells, hleft, hright⟩ :=
    List.flatten_eq_append_iff.1 hflatten
  · exact ⟨as, bs, hcells, hleft.symm, hright ▸ List.mem_cons_self⟩
  · obtain ⟨rfl, -⟩ := List.cons.inj hright
    cases List.eq_nil_or_concat u with
    | inl hu =>
      subst hu
      refine ⟨as, (j :: cs) :: bs, hcells, ?_, List.mem_flatten_of_mem List.mem_cons_self
        List.mem_cons_self⟩
      rw [hleft, List.append_nil]
    | inr hu =>
      -- Both items cannot be neighbours within one cell.
      obtain ⟨u, k, rfl⟩ := hu
      rw [List.concat_eq_append, ← List.append_assoc] at hleft
      obtain rfl : i = k := (List.append_inj' hleft rfl).2 |> List.cons.inj |>.1
      have hmem : u ++ i :: j :: cs ∈ cellsOf line := by
        rw [hcells, List.concat_eq_append, List.append_assoc]
        exact List.mem_append_right as List.mem_cons_self
      exact absurd hwide (not_wide_of_mem_cellsOf hmem)

/-- The cells of a line lie apart exactly if no item reaches over a wide gap. -/
theorem isChain_parted_iff (hsorted : FromLeft line) :
    (cellsOf line).IsChain (Parted (columnGap line)) ↔ NoOverhang (columnGap line) line := by
  have hflatten := flatten_cellsOf line
  constructor
  · rintro hchain before i j after hline hwide k hk
    have hpairwise := pairwise_parted (hflatten.symm ▸ hsorted)
      (fun c hc => ne_nil_of_mem_cellsOf hc) hchain
    obtain ⟨as, bs, hcells, hleft, hright⟩ := exists_cut hline hwide
    obtain ⟨a, ha, hka⟩ := List.mem_flatten.1 (hleft.symm ▸ List.mem_append_left [i] hk)
    obtain ⟨b, hb, hjb⟩ := List.mem_flatten.1 hright
    rw [hcells] at hpairwise
    exact (List.pairwise_append.1 hpairwise).2.2 a ha b hb k hka j hjb
  · intro h
    rw [List.isChain_iff_forall_rel_of_append_cons_cons]
    intro a b as bs hcells
    have hcut := List.isChain_iff_forall_rel_of_append_cons_cons.1 (isChain_cellsOf line) hcells
    obtain ⟨ha, hb, hwide⟩ := hcut
    have hsplit : line = (as.flatten ++ a.dropLast) ++
        a.getLast ha :: b.head hb :: (b.tail ++ bs.flatten) := by
      rw [← hflatten, hcells, List.flatten_append, List.flatten_cons, List.flatten_cons,
        ← List.cons_append, List.cons_head_tail]
      conv_lhs => rw [← List.dropLast_append_getLast ha]
      simp only [List.append_assoc, List.singleton_append]
    have hrest : FromLeft (b :: bs).flatten := by
      refine FromLeft.drop (as ++ [a]) ?_
      rwa [List.append_assoc, List.singleton_append, ← hcells, hflatten]
    intro i hi j hj
    have hle := hrest.head_le hb List.mem_cons_self hj
    have hfirst : columnGap line < (b.head hb).x - i.right := by
      rw [← List.dropLast_append_getLast ha] at hi
      obtain hi | hi := List.mem_append.1 hi
      · exact h _ _ _ _ hsplit hwide i (List.mem_append_right _ hi)
      · rwa [List.mem_singleton.1 hi]
    linarith

end

/-! ### Blocks side by side -/

/-- The one block ends before the other one begins. Edges off the page are moved to its border, and
only there do the two meet. -/
def Beside (b c : Block Rat) : Prop :=
  b.box.x1 ≤ c.box.x0 ∧ (b.box.x1 = c.box.x0 → b.box.x1 = 0 ∨ b.box.x1 = 1)

section

variable {page width height : Rat}

/-- Cells that lie apart have their blocks side by side. -/
theorem beside_cellBlock {i j : PlacedItem Rat} {is js : List (PlacedItem Rat)} (hgap : 0 ≤ gap)
    (hwidth : 0 < width) (h : Parted gap (i :: is) (j :: js)) (id id' text text' : String) :
    Beside (cellBlock id text i is page width height)
      (cellBlock id' text' j js page width height) := by
  have hedges := parted_iff_edges.1 h
  have hlt : Numeric.greatest i.right (is.map PlacedItem.right) / width <
      Numeric.least j.x (js.map (·.x)) / width := by
    refine div_lt_div_of_pos_right ?_ hwidth
    linarith
  exact ⟨Numeric.clampUnit_mono hlt.le, Numeric.clampUnit_border hlt⟩

theorem pairwise_beside {cells : List (List (PlacedItem Rat))} (hgap : 0 ≤ gap)
    (hwidth : 0 < width) (h : cells.Pairwise (Parted gap)) (n : Nat) :
    (cellBlocks page width height n cells).Pairwise Beside := by
  fun_induction cellBlocks page width height n cells with
  | case1 => exact .nil
  | case2 n cells ih => exact ih h.tail
  | case3 n i is cells text hempty ih => exact ih h.tail
  | case4 n i is cells text htext ih =>
    obtain ⟨hfirst, hrest⟩ := List.pairwise_cons.1 h
    refine List.pairwise_cons.2 ⟨fun b hb => ?_, ih hrest⟩
    obtain ⟨m, j, js, hmem, -, rfl⟩ := exists_of_mem_cellBlocks hb
    exact beside_cellBlock hgap hwidth (hfirst _ hmem) _ _ _ _

end

/-- The gap of a line is at least twelve points. -/
theorem twelve_le_columnGap (line : List (PlacedItem Rat)) : 12 ≤ columnGap line := by
  unfold columnGap
  simp only
  rw [Numeric.greater_eq_max]
  have htwelve : (12.0 : Rat) = 12 := by norm_num
  exact htwelve ▸ le_max_left _ _

/-- The cells of a line lie apart, by more than its gap, exactly if none of its items reaches over a
gap at which it is cut; the blocks of such a line are side by side. -/
theorem cellsOf_parted_iff {line : List (PlacedItem Rat)} (hsorted : FromLeft line) :
    ((cellsOf line).IsChain (Parted (columnGap line)) ↔ NoOverhang (columnGap line) line) ∧
      (NoOverhang (columnGap line) line → ∀ (page width height : Rat) (n : Nat), 0 < width →
        (cellBlocks page width height n (cellsOf line)).Pairwise Beside) := by
  refine ⟨isChain_parted_iff hsorted, fun hline page width height n hwidth => ?_⟩
  have hchain := (isChain_parted_iff hsorted).2 hline
  have hpairwise := pairwise_parted ((flatten_cellsOf line).symm ▸ hsorted)
    (fun c hc => ne_nil_of_mem_cellsOf hc) hchain
  have hgap : 0 ≤ columnGap line := le_trans (by norm_num) (twelve_le_columnGap line)
  exact pairwise_beside hgap hwidth hpairwise n

/-- Two words and a price. -/
def pricedLine : List (PlacedItem Rat) :=
  [⟨"Blue", 50, 700, 20, 10⟩, ⟨"pen", 74, 700, 15, 10⟩, ⟨"2.50", 200, 700, 20, 10⟩]

theorem cellsOf_parted_iff_priced :
    FromLeft pricedLine ∧ (cellsOf pricedLine).length = 2 ∧
      (cellsOf pricedLine).IsChain (Parted (columnGap pricedLine)) ∧
      (cellBlocks 0 600 800 0 (cellsOf pricedLine)).Pairwise Beside := by
  have hsorted : FromLeft pricedLine := by decide +kernel
  have hends : pricedLine.Pairwise fun i j => i.right ≤ j.right := by decide +kernel
  have hline : NoOverhang (columnGap pricedLine) pricedLine := noOverhang_of_pairwise hends
  obtain ⟨hparted, hbeside⟩ := cellsOf_parted_iff hsorted
  exact ⟨hsorted, by decide +kernel, hparted.2 hline, hbeside hline 0 600 800 0 (by norm_num)⟩

/-- A long run of text with a mark set over it, and a number after it. -/
def markedLine : List (PlacedItem Rat) :=
  [⟨"Grand total for the year", 50, 700, 200, 10⟩, ⟨"*", 60, 700, 5, 10⟩,
    ⟨"2024", 150, 700, 30, 10⟩]

/-- The text of `markedLine` ends far behind the number that is cut off from it. -/
theorem cellsOf_overhang :
    FromLeft markedLine ∧ (∀ i ∈ markedLine, 0 ≤ i.width) ∧
      ¬ (cellsOf markedLine).IsChain (Parted (columnGap markedLine)) ∧
      (cellBlocks 0 600 800 0 (cellsOf markedLine)).map (fun b => (b.box.x0, b.box.x1)) =
        [(50 / 600, 250 / 600), (150 / 600, 180 / 600)] := by
  have hcells : cellsOf markedLine =
      [[⟨"Grand total for the year", 50, 700, 200, 10⟩, ⟨"*", 60, 700, 5, 10⟩],
        [⟨"2024", 150, 700, 30, 10⟩]] := by decide +kernel
  refine ⟨by decide +kernel, by decide +kernel, ?_, ?_⟩
  · rw [hcells]
    intro hchain
    have hparted := (List.isChain_cons_cons.1 hchain).1
    revert hparted
    decide +kernel
  · have htotal : cellText [(⟨"Grand total for the year", 50, 700, 200, 10⟩ : PlacedItem Rat),
        ⟨"*", 60, 700, 5, 10⟩] = "Grand total for the year*" :=
      (Text.joined_of_whole (by decide +kernel)).trans (by decide +kernel)
    have hyear : cellText [(⟨"2024", 150, 700, 30, 10⟩ : PlacedItem Rat)] = "2024" :=
      (Text.joined_of_whole (by decide +kernel)).trans (by decide +kernel)
    rw [hcells]
    simp only [cellBlocks, htotal, hyear]
    decide +kernel

end PageExtract
