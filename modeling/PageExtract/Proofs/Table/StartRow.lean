/-
The row of the start anchor as headers.

Where no anchor heads the columns of a region, the row of its start anchor does. An anchor that was
joined from several blocks contains these, so that blocks which overlap the anchor are left out of
its row. The same is done when the anchor is a block of the document, and boxes that only touch count
as overlapping: a header that begins where the start anchor ends has no column, and if no other block
is left in the row the first row of the region is taken for the headers.

* `length_columnRanges` — there is one column for each header;
* `page_of_find?` — the blocks of a region are on the page of its start anchor;
* `inferTable_startRow` — the table of a region that no anchor heads;
* `inferTable_touching` — a header beside the start anchor that has no column.
-/
import PageExtract.Proofs.Number.Packing
import PageExtract.Proofs.Table.Columns
import PageExtract.Proofs.Table.Headers

namespace PageExtract

/-- There is one column for each header. -/
theorem length_columnRanges {ν : Type} [Numeric ν] (headers : List (Block ν)) :
    (columnRanges headers).length = headers.length := by
  rw [columnRanges, length_rangesFrom, (sortBy_perm centeredLeft headers).length_eq]

/-! ### The page of a region -/

theorem page_of_mem_blocksBetween {l : Layout Float} {start b : Block Float}
    {stop : Option (Block Float)} (hb : b ∈ l.blocksBetween start stop) :
    (b.box.page == start.box.page) = true := by
  unfold Layout.blocksBetween at hb
  simp only at hb
  split at hb
  · cases hb
  · have hpage := (List.mem_filter.1 ((sortBy_perm aboveOrLeft _).mem_iff.1 hb)).1
    exact (List.mem_filter.1 hpage).2

/-- The blocks of a region are on the page of its start anchor. -/
theorem page_of_find? {l : Layout Float} {found : FoundAnchors Float} {r : Region}
    {start b : Block Float} {blocks : List (Block Float)}
    (hstart : Members.get? found r.startAnchor = some start)
    (hregion : (r.find? l found).value = some blocks) (hb : b ∈ blocks) :
    (b.box.page == start.box.page) = true := by
  unfold Region.find? at hregion
  simp only [hstart] at hregion
  split at hregion
  · unfold Region.between at hregion
    split at hregion
    · cases hregion
    · cases hregion
      exact page_of_mem_blocksBetween hb
  · cases hregion

/-! ### Tables without header anchors -/

section

variable {ν : Type} [Numeric ν]

/-- Without anchors that head columns there are no candidates. -/
theorem headerCandidates_eq_nil {found : FoundAnchors ν} {page : ν} {names : List String}
    (hnone : ∀ h, ¬ Heads found page names h) : headerCandidates found page [] names = [] := by
  rw [List.eq_nil_iff_forall_not_mem]
  intro h hh
  obtain hmem | hheads := heads_of_mem_headerCandidates hh
  · cases hmem
  · exact hnone h hheads

/-- A table that no anchor heads has its headers from the start anchor or from its first row. -/
theorem inferTable_of_no_heads (l : Layout ν) (first : Block ν) (more : List (Block ν))
    (region : Option Region) (anchors : List Anchor) (found : FoundAnchors ν) (tolerance : ν)
    (hnone : ∀ h, ¬ Heads found first.box.page (headerNames region anchors) h) :
    inferTable l (first :: more) region anchors found tolerance =
      .withoutAnchors l tolerance (startOf found first.box.page region) (first :: more) := by
  have hall : ((first :: more).filter fun b => !b.isAmong ([] : List (Block ν))) = first :: more :=
    List.filter_eq_self.2 fun _ _ => rfl
  rw [inferTable_cons, headerCandidates_eq_nil hnone]
  simp only
  rw [hall]
  rfl

/-- If a block of the row of the start anchor does not overlap the anchor, it and all others like it
head the columns beside the anchor. -/
theorem columns_withoutAnchors {l : Layout ν} {tolerance : ν} {start : Block ν}
    (data : List (Block ν))
    (hapart : ∃ b ∈ l.blocksInRow start tolerance, b.box.overlaps start.box = false) :
    (Table.withoutAnchors l tolerance (some start) data).columns =
      columnRanges (startRow l tolerance start) := by
  obtain ⟨b, hb, hoverlaps⟩ := hapart
  have hmem : b ∈ (l.blocksInRow start tolerance).filter fun b => !b.box.overlaps start.box :=
    List.mem_filter.2 ⟨hb, by rw [hoverlaps]; rfl⟩
  unfold Table.withoutAnchors
  rw [Option.map_some, startRow]
  cases hrow : (l.blocksInRow start tolerance).filter fun b => !b.box.overlaps start.box with
  | nil =>
    rw [hrow] at hmem
    cases hmem
  | cons c cs => rfl

/-- If all blocks of the row of the start anchor overlap it, the first row of the data heads the
columns. -/
theorem withoutAnchors_of_overlaps {l : Layout ν} {tolerance : ν} {start : Block ν}
    (data : List (Block ν))
    (hoverlaps : ∀ b ∈ l.blocksInRow start tolerance, b.box.overlaps start.box = true) :
    Table.withoutAnchors l tolerance (some start) data = .ofRows (groupRows tolerance data) := by
  have hrow : (l.blocksInRow start tolerance).filter (fun b => !b.box.overlaps start.box) = [] :=
    List.filter_eq_nil_iff.2 fun b hb => by simp [hoverlaps b hb]
  unfold Table.withoutAnchors
  rw [Option.map_some, startRow, hrow]

/-- The start anchor and all blocks of its row have a column each exactly if none of these overlaps
it. -/
theorem columnRanges_startRow_iff (l : Layout ν) (tolerance : ν) (start : Block ν) :
    columnRanges (startRow l tolerance start) =
        columnRanges (start :: l.blocksInRow start tolerance) ↔
      ∀ b ∈ l.blocksInRow start tolerance, b.box.overlaps start.box = false := by
  constructor
  · -- A block that is left out is missed in the number of columns.
    intro hcolumns
    have hlength := congrArg List.length hcolumns
    rw [length_columnRanges, length_columnRanges, startRow, List.length_cons, List.length_cons,
      Nat.add_right_cancel_iff, List.length_filter_eq_length_iff] at hlength
    intro b hb
    simpa using hlength b hb
  · intro hnone
    rw [startRow, List.filter_eq_self.2 fun b hb => by rw [hnone b hb]; rfl]

end

/-- In a region that no anchor heads, the start anchor and those blocks of its row that do not
overlap it have a column each, if there are such blocks. All blocks of the row have one exactly if
none of them overlaps the anchor or touches it. If all of them do, the first row of the region has
the columns. -/
theorem inferTable_startRow {l : Layout Float} {found : FoundAnchors Float} {r : Region}
    {start : Block Float} (hstart : Members.get? found r.startAnchor = some start)
    {first : Block Float} {more : List (Block Float)}
    (hregion : (r.find? l found).value = some (first :: more)) {anchors : List Anchor}
    (hnone : ∀ h, ¬ Heads found first.box.page (headerNames (some r) anchors) h)
    (tolerance : Float) :
    let t := inferTable l (first :: more) (some r) anchors found tolerance
    let row := l.blocksInRow start tolerance
    ((∃ b ∈ row, b.box.overlaps start.box = false) →
      t.columns = columnRanges (start :: row.filter fun b => !b.box.overlaps start.box) ∧
        (t.columns = columnRanges (start :: row) ↔
          ∀ b ∈ row, b.box.overlaps start.box = false)) ∧
      ((∀ b ∈ row, b.box.overlaps start.box = true) →
        t = .ofRows (groupRows tolerance (first :: more))) := by
  intro t row
  have hpage : (start.box.page == first.box.page) = true := by
    rw [Double.beq_comm]
    exact page_of_find? hstart hregion List.mem_cons_self
  have hstartOf : startOf found first.box.page (some r) = some start := by
    simp only [startOf]
    rw [hstart, Option.filter_some, hpage]
    rfl
  have ht : t = .withoutAnchors l tolerance (some start) (first :: more) := by
    rw [← hstartOf]
    exact inferTable_of_no_heads l first more (some r) anchors found tolerance hnone
  constructor
  · intro hapart
    have hcolumns : t.columns = columnRanges (startRow l tolerance start) := by
      rw [ht]
      exact columns_withoutAnchors (first :: more) hapart
    exact ⟨hcolumns, hcolumns ▸ columnRanges_startRow_iff l tolerance start⟩
  · intro hoverlaps
    rw [ht]
    exact withoutAnchors_of_overlaps (first :: more) hoverlaps

/-! ### A header that begins where the start anchor ends -/

/-- A block on a line of the bill. -/
def billBlock (id text : String) (x0 x1 y : Float) : Block Float :=
  ⟨id, text, ⟨x0, y, x1, y + 0.02, 0.0⟩, 99.0, none, false, .text⟩

def billItem : Block Float := billBlock "a" "Item" 0.1 0.3 0.1

/-- The header of the quantities. Its left edge is the right edge of the start anchor. -/
def billQty : Block Float := billBlock "b" "Qty" 0.3 0.5 0.1

def billPrice : Block Float := billBlock "c" "Price" 0.6 0.7 0.1

/-- The row below the headers. -/
def billPen : List (Block Float) :=
  [billBlock "d" "Pen" 0.1 0.2 0.2, billBlock "e" "2" 0.3 0.35 0.2,
    billBlock "f" "5" 0.6 0.65 0.2]

/-- A table with three columns. -/
def billSheet : Layout Float :=
  ⟨none, 1.0, [(612.0, 792.0)], [billItem, billQty, billPrice] ++ billPen, "", none⟩

/-- No anchor of the sheet heads a column. -/
def billAnchors : List Anchor := [⟨"item", ["Item"], .contains, none, true, none⟩]

def billFound : FoundAnchors Float := [("item", billItem)]

def billRegion : Region := ⟨"table", "item", "end_of_document", .table, none⟩

/-- The row of the start anchor heads the table of the sheet but for a block that touches the
anchor. -/
theorem inferTable_startRow_bill :
    let t := inferTable billSheet billPen (some billRegion) billAnchors billFound 0.015
    let row := billSheet.blocksInRow billItem 0.015
    ((∃ b ∈ row, b.box.overlaps billItem.box = false) →
      t.columns = columnRanges (billItem :: row.filter fun b => !b.box.overlaps billItem.box) ∧
        (t.columns = columnRanges (billItem :: row) ↔
          ∀ b ∈ row, b.box.overlaps billItem.box = false)) ∧
      ((∀ b ∈ row, b.box.overlaps billItem.box = true) →
        t = .ofRows (groupRows 0.015 billPen)) := by
  have hstart : Members.get? billFound billRegion.startAnchor = some billItem := by decide
  have hregion : (billRegion.find? billSheet billFound).value = some billPen := by
    decide +kernel
  have hnames : headerNames (some billRegion) billAnchors = [] := by decide
  have hnone : ∀ h, ¬ Heads billFound 0.0 (headerNames (some billRegion) billAnchors) h := by
    rintro h ⟨name, hname, -⟩
    rw [hnames] at hname
    cases hname
  exact inferTable_startRow hstart hregion hnone 0.015

/-- The start anchor is a block of the sheet and has two blocks beside it, of which one has a
column. -/
theorem inferTable_touching :
    (findAnchors billSheet .standard billAnchors).value.toOption = some billFound ∧
    billItem ∈ billSheet.blocks ∧
    (billRegion.find? billSheet billFound).value = some billPen ∧
    headerNames (some billRegion) billAnchors = [] ∧
    billSheet.blocksInRow billItem 0.015 = [billQty, billPrice] ∧
    let t := inferTable billSheet billPen (some billRegion) billAnchors billFound 0.015
    t.columns = columnRanges [billItem, billPrice] ∧
      t.columns ≠ columnRanges [billItem, billQty, billPrice] := by
  refine ⟨?_, ?_, ?_, ?_, ?_, ?_⟩
  · decide +kernel
  · exact List.mem_cons_self
  · decide +kernel
  · decide
  · decide +kernel
  · decide +kernel

end PageExtract
