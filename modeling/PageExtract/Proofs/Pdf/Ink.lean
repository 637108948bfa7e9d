/-
The texts of the items of a PDF page.

Every item that is not blank belongs to one cell, and a cell has a block that shows the characters
of its items one item after the other:

* `ink_of_place`, `place?_eq_none_iff` — the items that have a place are those with ink;
* `ink_cellText` — the text of a cell has the ink of its items;
* `forall₂_cellBlocks` — cells with ink have one block each;
* `pageBlocks_ink` — no ink of a page is lost or repeated.
-/
import PageExtract.Proofs.Pdf.Blocks
import PageExtract.Proofs.Text.Ink

namespace PageExtract

open Text (ink inkChars)

/-! ### Pieces of related lists -/

/-- A list that is related to some pieces, one after the other, falls into such pieces. -/
theorem exists_pieces_of_forall₂ {α β : Type} {R : α → β → Prop} {xss : List (List α)}
    {ys : List β} (h : List.Forall₂ R xss.flatten ys) :
    ∃ yss, yss.flatten = ys ∧ List.Forall₂ (List.Forall₂ R) xss yss := by
  induction xss generalizing ys with
  | nil =>
    cases h
    exact ⟨[], rfl, .nil⟩
  | cons xs xss ih =>
    have hfirst := List.forall₂_take_append ys xs xss.flatten h.flip
    have hrest := List.forall₂_drop_append ys xs xss.flatten h.flip
    obtain ⟨yss, hflatten, hyss⟩ := ih hrest.flip
    refine ⟨ys.take xs.length :: yss, ?_, .cons hfirst.flip hyss⟩
    rw [List.flatten_cons, hflatten, List.take_append_drop]

/-- Related lists give the same if related elements do. -/
theorem flatMap_of_forall₂ {α β γ : Type} {f : α → List γ} {g : β → List γ} {xs : List α}
    {ys : List β} (h : List.Forall₂ (fun x y => g y = f x) xs ys) :
    ys.flatMap g = xs.flatMap f := by
  induction h with
  | nil => rfl
  | cons hfirst _ ih => rw [List.flatMap_cons, List.flatMap_cons, hfirst, ih]

variable {ν : Type} [Numeric ν]

/-! ### Items -/

theorem ink_plainSpaces (s : String) : ink (plainSpaces s) = ink s := by
  unfold ink plainSpaces
  rw [String.toList_ofList]
  induction s.toList with
  | nil => rfl
  | cons c cs ih =>
    rw [List.map_cons, Text.inkChars_cons, Text.inkChars_cons, ih]
    split
    · rename_i hc
      -- A no-break space is blank, as is the space that stands for it.
      have hblank : Text.isBlank c = true := by simp [Text.isBlank, hc]
      rw [Text.filter_charUnits_of_blank hblank, Text.filter_charUnits_of_blank rfl]
    · rfl

/-- A placed item has the ink of the item. -/
theorem ink_of_place {i : TextItem ν} {p : PlacedItem ν} (h : i.place? = some p) :
    ink p.text = ink i.text := by
  unfold TextItem.place? at h
  simp only at h
  split at h
  · cases h
  · cases h
    exact ink_plainSpaces i.text

/-- The items that have a place are those with ink. -/
theorem place?_eq_none_iff (i : TextItem ν) : i.place? = none ↔ ink i.text = [] := by
  unfold TextItem.place?
  simp only
  rw [← ink_plainSpaces, Text.ink_eq_nil_iff, ← String.isEmpty_iff]
  split <;> simp_all

/-- Whether the text of an item is not blank. -/
def TextItem.isSeen (i : TextItem ν) : Bool := !(Text.trim i.text).isEmpty

theorem isSome_place? (i : TextItem ν) : i.place?.isSome = i.isSeen := by
  rw [Bool.eq_iff_iff, ← Option.isNone_eq_false_iff, TextItem.isSeen, Bool.not_eq_true',
    ← Bool.not_eq_true, ← Bool.not_eq_true, Option.isNone_iff_eq_none, place?_eq_none_iff,
    Text.ink_eq_nil_iff, String.isEmpty_iff]

/-! ### Texts of cells -/

/-- Joining items adds spaces only. -/
theorem inkChars_joinItems (gap right : ν) (done : List Char) (is : List (PlacedItem ν)) :
    inkChars (joinItems gap right done is) =
      inkChars done.reverse ++ is.flatMap fun i => ink i.text := by
  induction is generalizing right done with
  | nil => rw [joinItems, List.flatMap_nil, List.append_nil]
  | cons i is ih =>
    rw [joinItems, ih, List.reverse_append, List.reverse_reverse, Text.inkChars_append,
      List.flatMap_cons, ← List.append_assoc]
    congr 2
    split
    · have hspace : inkChars [' '] = [] := rfl
      rw [List.reverse_cons, Text.inkChars_append, hspace, List.append_nil]
    · rfl

/-- The text of a cell has the ink of its items, one item after the other. -/
theorem ink_cellText (cell : List (PlacedItem ν)) :
    ink (cellText cell) = cell.flatMap fun i => ink i.text := by
  cases cell with
  | nil => rfl
  | cons i is =>
    rw [cellText, Text.ink_joined, ink, String.toList_ofList, Text.inkChars_trimChars,
      inkChars_joinItems, List.reverse_reverse, List.flatMap_cons]
    rfl

/-- Cells with ink have one block each. -/
theorem forall₂_cellBlocks (page width height : ν) (n : Nat) {cells : List (List (PlacedItem ν))}
    (hcells : ∀ cell ∈ cells, (cell.flatMap fun i => ink i.text) ≠ []) :
    List.Forall₂ (fun cell b => ink b.text = cell.flatMap fun i => ink i.text) cells
      (cellBlocks page width height n cells) := by
  fun_induction cellBlocks page width height n cells with
  | case1 => exact .nil
  | case2 n cells ih => exact absurd rfl (hcells [] List.mem_cons_self)
  | case3 n i is cells text hempty ih =>
    refine absurd ?_ (hcells (i :: is) List.mem_cons_self)
    have hnone : cellText (i :: is) = "" := String.isEmpty_iff.1 hempty
    rw [← ink_cellText, hnone]
    rfl
  | case4 n i is cells text htext ih =>
    exact .cons (ink_cellText (i :: is)) (ih fun cell hcell => hcells cell (by simp [hcell]))

/-! ### The items of blocks -/

theorem ink_of_mem_pageCells {items : List (TextItem ν)} {cell : List (PlacedItem ν)}
    (hcell : cell ∈ pageCells items) : (cell.flatMap fun i => ink i.text) ≠ [] := by
  obtain ⟨line, -, hline⟩ := List.mem_flatMap.1 hcell
  obtain ⟨p, ps, rfl⟩ := List.exists_cons_of_ne_nil (ne_nil_of_mem_cellsOf hline)
  have hp : p ∈ (pageCells items).flatten := List.mem_flatten_of_mem hcell List.mem_cons_self
  obtain ⟨i, -, hi⟩ := List.mem_filterMap.1 ((perm_pageCells items).mem_iff.1 hp)
  rw [List.flatMap_cons, ink_of_place hi]
  refine List.append_ne_nil_of_left_ne_nil (fun hnone => ?_) _
  rw [(place?_eq_none_iff i).2 hnone] at hi
  cases hi

/-- The placed items stand in the order of the items, of which each is kept with its position. -/
theorem forall₂_place (items : List (TextItem ν)) (n : Nat) :
    List.Forall₂ (fun p i => i.1.place? = some p) (items.filterMap TextItem.place?)
      ((items.zipIdx n).filter fun i => i.1.isSeen) := by
  induction items generalizing n with
  | nil => exact .nil
  | cons i items ih =>
    rw [List.zipIdx_cons, List.filter_cons, ← isSome_place?]
    cases hplace : i.place? with
    | none =>
      rw [List.filterMap_cons_none hplace]
      exact ih (n + 1)
    | some p =>
      rw [List.filterMap_cons_some hplace]
      exact .cons hplace (ih (n + 1))

theorem flatMap_ink_of_place {cell : List (PlacedItem ν)} {group : List (TextItem ν × Nat)}
    (h : List.Forall₂ (fun p i => i.1.place? = some p) cell group) :
    (cell.flatMap fun p => ink p.text) = group.flatMap fun i => ink i.1.text := by
  exact (flatMap_of_forall₂ (h.imp fun p i hplace => (ink_of_place hplace).symm)).symm

/-- The blocks of cells are those of the groups of items that the cells come from. -/
theorem forall₂_groups {cells : List (List (PlacedItem ν))}
    {groups : List (List (TextItem ν × Nat))} {blocks : List (Block ν)}
    (hgroups : List.Forall₂ (List.Forall₂ fun p i => i.1.place? = some p) cells groups)
    (hblocks : List.Forall₂ (fun cell b => ink b.text = cell.flatMap fun p => ink p.text) cells
      blocks) :
    List.Forall₂ (fun group b => ink b.text = group.flatMap fun i => ink i.1.text) groups
      blocks := by
  induction hgroups generalizing blocks with
  | nil =>
    cases hblocks
    exact .nil
  | cons hgroup _ ih =>
    cases hblocks with
    | cons hblock hrest => exact .cons (hblock.trans (flatMap_ink_of_place hgroup)) (ih hrest)

/-- Blank items have no ink. -/
theorem flatMap_ink_seen (items : List (TextItem ν)) (n : Nat) :
    (((items.zipIdx n).filter fun i => i.1.isSeen).flatMap fun i => ink i.1.text) =
      items.flatMap fun i => ink i.text := by
  induction items generalizing n with
  | nil => rfl
  | cons i items ih =>
    rw [List.zipIdx_cons, List.filter_cons, List.flatMap_cons]
    cases hseen : i.isSeen with
    | true => exact congrArg (ink i.text ++ ·) (ih (n + 1))
    | false =>
      rw [← isSome_place?, Option.isSome_eq_false_iff, Option.isNone_iff_eq_none,
        place?_eq_none_iff] at hseen
      rw [hseen]
      exact ih (n + 1)

/-- No ink of a page is lost or repeated: the items that are not blank, told apart by their
positions, fall into one group for each block, and a block has the ink of its group. -/
theorem pageBlocks_ink (items : List (TextItem ν)) (page width height : ν) :
    ((pageBlocks items page width height).flatMap fun b => ink b.text).Perm
        (items.flatMap fun i => ink i.text) ∧
      ∃ groups : List (List (TextItem ν × Nat)),
        groups.flatten.Perm (items.zipIdx.filter fun i => i.1.isSeen) ∧
        List.Forall₂ (fun group b => ink b.text = group.flatMap fun i => ink i.1.text) groups
          (pageBlocks items page width height) := by
  obtain ⟨kept, hkept, hperm⟩ :=
    List.perm_comp_forall₂ (perm_pageCells items) (forall₂_place items 0)
  obtain ⟨groups, rfl, hgroups⟩ := exists_pieces_of_forall₂ hkept
  have hblocks : List.Forall₂ (fun group b => ink b.text = group.flatMap fun i => ink i.1.text)
      groups (pageBlocks items page width height) :=
    forall₂_groups hgroups (forall₂_cellBlocks page width height 0 fun _ => ink_of_mem_pageCells)
  refine ⟨?_, groups, hperm, hblocks⟩
  have hink : (pageBlocks items page width height).flatMap (fun b => ink b.text) =
      groups.flatten.flatMap fun i => ink i.1.text := by
    rw [flatMap_of_forall₂ hblocks, ← List.flatMap_id, List.flatMap_assoc]
    rfl
  rw [hink, ← flatMap_ink_seen items 0]
  exact hperm.flatMap_right _

end PageExtract
