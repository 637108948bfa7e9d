/-
The lines and the cells of a PDF page.

An item joins one line, sorting keeps the items of a line together, and a line is cut into cells
from left to right. So lines and cells part the items of a page:

* `perm_linesOf` — the items on the lines are the items of the page;
* `IsWide`, `cellsOf_eq_splitBy` — the cells of a line as the pieces between its wide gaps;
* `flatten_cellsOf`, `ne_nil_of_mem_cellsOf` — the cells make up the line, and none of them is
  empty;
* `pageCells`, `perm_pageCells` — the cells of a page.
-/
import Mathlib.Data.List.Perm.Basic
import Mathlib.Data.List.SplitBy
import PageExtract.Pdf.Line

namespace PageExtract

variable {ν : Type} [Numeric ν]

/-! ### Lines -/

theorem perm_addToLines (i : PlacedItem ν) (ls : List (PdfLine ν)) :
    ((addToLines i ls).flatMap (·.items)).Perm (i :: ls.flatMap (·.items)) := by
  induction ls with
  | nil => exact .refl _
  | cons l ls ih =>
    unfold addToLines
    split
    · simp only [List.flatMap_cons, List.append_assoc, List.singleton_append]
      exact List.perm_middle
    · rw [List.flatMap_cons, List.flatMap_cons]
      exact (ih.append_left l.items).trans List.perm_middle

theorem perm_foldl_addToLines (items : List (PlacedItem ν)) (ls : List (PdfLine ν)) :
    ((items.foldl (fun ls i => addToLines i ls) ls).flatMap (·.items)).Perm
      (items ++ ls.flatMap (·.items)) := by
  induction items generalizing ls with
  | nil => exact .refl _
  | cons i items ih =>
    have hstep := (perm_addToLines i ls).append_left items
    exact (ih (addToLines i ls)).trans (hstep.trans List.perm_middle)

/-- Every item is on one line. -/
theorem perm_linesOf (items : List (PlacedItem ν)) : (linesOf items).flatten.Perm items := by
  unfold linesOf
  rw [← List.flatMap_def]
  refine (List.Perm.flatMap (sortBy_perm _ _) fun l _ => sortBy_perm _ l.items).trans ?_
  have hlines := perm_foldl_addToLines items []
  rwa [List.flatMap_nil, List.append_nil] at hlines

/-! ### Cells -/

/-- Whether the gap between two items is wide. -/
def IsWide (gap : ν) (i j : PlacedItem ν) : Bool := gap < j.x - i.right

theorem loop_eq_splitCells (gap : ν) (is : List (PlacedItem ν)) (i : PlacedItem ν)
    (begun : List (PlacedItem ν)) (done : List (List (PlacedItem ν))) :
    List.splitBy.loop (fun i j => !IsWide gap i j) is i begun done =
      done.reverse ++ splitCells gap i.right (i :: begun) is := by
  induction is generalizing i begun done with
  | nil => simp [List.splitBy.loop, splitCells]
  | cons j js ih =>
    rw [List.splitBy.loop, splitCells]
    by_cases hwide : gap < j.x - i.right
    · have hcut : IsWide gap i j = true := decide_eq_true hwide
      simp only [hcut, Bool.not_true, if_pos hwide]
      rw [ih, List.reverse_cons, List.append_assoc]
      rfl
    · have hcut : IsWide gap i j = false := decide_eq_false hwide
      simp only [hcut, Bool.not_false, if_neg hwide]
      exact ih j (i :: begun) done

/-- A line falls into its cells at the wide gaps. -/
theorem cellsOf_eq_splitBy (line : List (PlacedItem ν)) :
    cellsOf line = line.splitBy fun i j => !IsWide (columnGap line) i j := by
  cases line with
  | nil => rfl
  | cons i is => exact (loop_eq_splitCells (columnGap (i :: is)) is i [] []).symm

/-- Every item of a line is in one cell, and cells keep the order of the line. -/
theorem flatten_cellsOf (line : List (PlacedItem ν)) : (cellsOf line).flatten = line := by
  rw [cellsOf_eq_splitBy]
  exact List.flatten_splitBy _ line

/-- No cell is empty. -/
theorem ne_nil_of_mem_cellsOf {line cell : List (PlacedItem ν)} (hcell : cell ∈ cellsOf line) :
    cell ≠ [] := by
  rw [cellsOf_eq_splitBy] at hcell
  exact List.ne_nil_of_mem_splitBy hcell

/-- The cells of a page, line by line. -/
def pageCells (items : List (TextItem ν)) : List (List (PlacedItem ν)) :=
  (linesOf (items.filterMap TextItem.place?)).flatMap cellsOf

/-- The cells of a page part the items that have a place. -/
theorem perm_pageCells (items : List (TextItem ν)) :
    (pageCells items).flatten.Perm (items.filterMap TextItem.place?) := by
  have hcells : (pageCells items).flatten =
      (linesOf (items.filterMap TextItem.place?)).flatten := by
    unfold pageCells
    rw [List.flatMap_def, List.flatten_flatten, List.map_map]
    simp only [Function.comp_def, flatten_cellsOf, List.map_id']
  rw [hcells]
  exact perm_linesOf _

end PageExtract
