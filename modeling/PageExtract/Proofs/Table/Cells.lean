/-
Cells of a table.

The columns of a table cover everything from the left edge of the page on, as one begins where the
one before it ends and the last one has no end. So each block of a row is in one cell of the row,
also if centres of headers coincide, if a sum is rounded, or if the tolerance moves an edge past the
end of the page.

* `perm_flatMap_filter` — a list that is distributed by an index;
* `columnIndexAt_of_unit` — the column of a position, from headers on the page;
* `cells_partition` — the cells of a row.
-/
import Mathlib.Logic.ExistsUnique
import PageExtract.Proofs.Number.Unsigned
import PageExtract.Proofs.Table.Columns

namespace PageExtract

/-- A list whose elements have an index is the parts with the same index, one after the other. -/
theorem perm_flatMap_filter {α : Type} (index : α → Option Nat) {n : Nat} {xs : List α}
    (h : ∀ x ∈ xs, ∃ i < n, index x = some i) :
    ((List.range n).flatMap fun i => xs.filter fun x => index x == some i).Perm xs := by
  induction n generalizing xs with
  | zero =>
    have hempty : xs = [] := by
      refine List.eq_nil_iff_forall_not_mem.2 fun x hx => ?_
      obtain ⟨i, hi, -⟩ := h x hx
      exact Nat.not_lt_zero i hi
    rw [hempty]
    exact .nil
  | succ n ih =>
    -- What does not have the last index is distributed among the others.
    let others := xs.filter fun x => !(index x == some n)
    have hothers : ∀ x ∈ others, ∃ i < n, index x = some i := by
      intro x hx
      obtain ⟨hx, hne⟩ := List.mem_filter.1 hx
      obtain ⟨i, hi, hindex⟩ := h x hx
      refine ⟨i, ?_, hindex⟩
      have hin : i ≠ n := by
        rintro rfl
        simp [hindex] at hne
      omega
    have hparts : ∀ i ∈ List.range n, (xs.filter fun x => index x == some i) =
        others.filter fun x => index x == some i := by
      intro i hi
      have hin : i ≠ n := (List.mem_range.1 hi).ne
      rw [List.filter_filter]
      refine List.filter_congr fun x _ => ?_
      by_cases hindex : index x = some i <;> simp [hindex, hin]
    rw [List.range_succ, List.flatMap_append, List.flatMap_singleton, List.flatMap_congr hparts]
    refine ((ih hothers).append_right _).trans (List.perm_append_comm.trans ?_)
    exact List.filter_append_perm (fun x => index x == some n) xs

/-! ### Positions on a page -/

theorem zero_le_centerX {b : Box Float} (h0 : 0.0 ≤ b.x0) (h1 : 0.0 ≤ b.x1) : 0.0 ≤ b.centerX :=
  Double.zero_le_half (Double.zero_le_add h0 h1)

/-- If there are headers at all, and their edges are on the page, then a position that is not left
of the page is in one of their columns. -/
theorem columnIndexAt_of_unit {headers : List (Block Float)} (hne : headers ≠ [])
    (hedges : ∀ h ∈ headers, 0.0 ≤ h.box.x0 ∧ 0.0 ≤ h.box.x1) {x : Float} (hx : 0.0 ≤ x) :
    ∃ column < (columnRanges headers).length,
      columnIndexAt x (columnRanges headers) = some column := by
  refine columnRanges_cover hne hx fun g hg h hh => Double.le_of_not_lt hx ?_
  have hcenter : ∀ h ∈ headers, 0.0 ≤ h.box.centerX := fun h hh =>
    zero_le_centerX (hedges h hh).1 (hedges h hh).2
  exact Double.zero_le_half (Double.zero_le_add (hcenter g hg) (hcenter h hh))

/-- Each column of a table with a header has one text for each row, and each block of a row is in
exactly one cell of it. A cell has its blocks in the order of the row, and together the cells of a
row have each block of it once. -/
theorem cells_partition {t : Table Float} {headers : List (Block Float)}
    (ht : t.columns = columnRanges headers) (hne : headers ≠ [])
    (hedges : ∀ h ∈ headers, 0.0 ≤ h.box.x0 ∧ 0.0 ≤ h.box.x1)
    (hrows : ∀ row ∈ t.rows, ∀ b ∈ row, 0.0 ≤ b.box.x0) {tolerance : Float}
    (htolerance : 0.0 ≤ tolerance) :
    (∀ column, (t.columnTexts column tolerance).length = t.rows.length) ∧
      ∀ row ∈ t.rows,
        (∀ b ∈ row, ∃! column, column < t.columns.length ∧ b ∈ t.cell column tolerance row) ∧
        (∀ column, (t.cell column tolerance row).Sublist row) ∧
        ((List.range t.columns.length).flatMap fun column => t.cell column tolerance row).Perm
          row := by
  refine ⟨fun column => List.length_map _, fun row hrow => ?_⟩
  have hindex : ∀ b ∈ row, ∃ column < t.columns.length,
      columnIndexAt (b.box.x0 + tolerance) t.columns = some column := by
    intro b hb
    rw [ht]
    exact columnIndexAt_of_unit hne hedges (Double.zero_le_add (hrows row hrow b hb) htolerance)
  refine ⟨fun b hb => ?_, fun column => List.filter_sublist, perm_flatMap_filter _ hindex⟩
  obtain ⟨column, hlt, hcolumn⟩ := hindex b hb
  refine ⟨column, ⟨hlt, (mem_cell_iff hcolumn row column).2 ⟨hb, rfl⟩⟩, ?_⟩
  rintro i ⟨-, hi⟩
  exact ((mem_cell_iff hcolumn row i).1 hi).2

/-- A block on one line with others. -/
def onLine (text : String) (x0 x1 y : Float) : Block Float :=
  ⟨text, text, ⟨x0, y, x1, y + 0.02, 0.0⟩, 99.0, none, false, .text⟩

/-- Two headers with one centre, and one to the right of them. -/
def twinHeaders : List (Block Float) :=
  [onLine "No" 0.1 0.3 0.1, onLine "Code" 0.15 0.25 0.1, onLine "Price" 0.6 0.7 0.1]

/-- A row that begins at the left edge of the page and goes on almost to the right one. -/
def wideRow : List (Block Float) :=
  [onLine "7" 0.0 0.05 0.2, onLine "A" 0.1 0.15 0.2, onLine "12" 0.65 0.7 0.2,
    onLine "EUR" 0.99 1.0 0.2]

/-- The tolerance moves the last block past the end of the page, and it is in the last column. -/
theorem cells_partition_twins :
    let t : Table Float := ⟨columnRanges twinHeaders, [wideRow]⟩
    (∀ b ∈ wideRow, ∃! column, column < t.columns.length ∧ b ∈ t.cell column 0.03 wideRow) ∧
      ((List.range t.columns.length).flatMap fun column => t.cell column 0.03 wideRow).Perm
        wideRow ∧
      (List.range t.columns.length).map (t.columnTexts · 0.03) = [["7 A"], [""], ["12 EUR"]] := by
  intro t
  have hedges : ∀ h ∈ twinHeaders, 0.0 ≤ h.box.x0 ∧ 0.0 ≤ h.box.x1 := by decide +kernel
  have hrows : ∀ row ∈ t.rows, ∀ b ∈ row, 0.0 ≤ b.box.x0 := by decide +kernel
  have htolerance : (0.0 : Float) ≤ 0.03 := by decide +kernel
  obtain ⟨-, hcells⟩ := cells_partition (t := t) rfl (List.cons_ne_nil _ _) hedges hrows htolerance
  obtain ⟨hunique, -, hperm⟩ := hcells wideRow List.mem_cons_self
  exact ⟨hunique, hperm, by decide +kernel⟩

end PageExtract
