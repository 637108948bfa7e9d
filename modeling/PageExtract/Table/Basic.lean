/-
Tables in regions.

The headers of a table are anchors: those that its region names, or else those that have a role.
Of these the nearest row at or above the first row of the region counts. Without one, the row of
the start anchor holds the headers if it has two blocks or more, and failing that the first row of
the region does. Headers, also those of other tables of the page, are never data.

* `Table` : columns and rows of data;
* `inferTable` : the table in a region;
* `Table.columnTexts` : the texts of a column, one for each row.
-/
import PageExtract.Processor.Basic
import PageExtract.Table.Grid

namespace PageExtract

/-- A table. -/
structure Table (ν : Type) where
  columns : List (ColumnRange ν)
  rows : List (List (Block ν))
deriving Inhabited

/-- The blocks that anchors were found at, by the name of the anchor. -/
abbrev FoundAnchors (ν : Type) := Members (Block ν)

variable {ν : Type} [Numeric ν]

/-- The anchors that can head the columns of a region. -/
def headerNames (region : Option Region) (anchors : List Anchor) : List String :=
  match region.bind (·.headerAnchors) with
  | some names => names
  | none => (anchors.filter fun a => a.role.isSome).map (·.name)

/-- The blocks of a page that some anchors were found at, each once. `seen` holds those before,
the last one first. -/
def headerCandidates (found : FoundAnchors ν) (page : ν) (seen : List (Block ν)) :
    List String → List (Block ν)
  | [] => seen.reverse
  | name :: names =>
    match Members.get? found name with
    | some b =>
      if !(b.box.page == page) || b.isAmong seen then headerCandidates found page seen names
      else headerCandidates found page (b :: seen) names
    | none => headerCandidates found page seen names

/-- Of some blocks those that are level with the lowest of them. -/
def lowestRow (rowTolerance : ν) (bs : List (Block ν)) : List (Block ν) :=
  match bs with
  | [] => []
  | b :: more =>
    let low := Numeric.greatest b.box.centerY (more.map (·.box.centerY))
    bs.filter fun h => low - h.box.centerY ≤ rowTolerance

/-- Of some candidates those that head a table whose data are `first` and `more`: the nearest row
at or above the highest of the data. -/
def tableHeaders (rowTolerance : ν) (candidates : List (Block ν)) (first : Block ν)
    (more : List (Block ν)) : List (Block ν) :=
  let top := Numeric.least first.box.centerY (more.map (·.box.centerY))
  lowestRow rowTolerance (candidates.filter fun h => h.box.centerY ≤ top + rowTolerance)

/-- The table of some headers and data. -/
def Table.ofHeaders (rowTolerance : ν) (headers data : List (Block ν)) : Table ν :=
  ⟨columnRanges headers, groupRows rowTolerance data⟩

/-- The table whose headers are its first row. -/
def Table.ofRows (rows : List (List (Block ν))) : Table ν :=
  match rows with
  | [] => ⟨[], []⟩
  | headers :: rows => ⟨columnRanges headers, rows⟩

/-- The row of a start anchor. An anchor of several blocks contains the blocks that it was joined
from, so that blocks that overlap it are left out. -/
def startRow (l : Layout ν) (rowTolerance : ν) (start : Block ν) : List (Block ν) :=
  start :: (l.blocksInRow start rowTolerance).filter fun b => !b.box.overlaps start.box

/-- The block of a page that the start anchor of a region was found at. -/
def startOf (found : FoundAnchors ν) (page : ν) (region : Option Region) : Option (Block ν) :=
  match region with
  | some r => (Members.get? found r.startAnchor).filter fun b => b.box.page == page
  | none => none

/-- The table of data for which no anchor is a header. -/
def Table.withoutAnchors (l : Layout ν) (rowTolerance : ν) (start : Option (Block ν))
    (data : List (Block ν)) : Table ν :=
  match start.map (startRow l rowTolerance) with
  | some (s :: t :: more) =>
    let row := s :: t :: more
    .ofHeaders rowTolerance row (data.filter fun b => !b.isAmong row)
  | _ => .ofRows (groupRows rowTolerance data)

/-- The table in the blocks of a region. -/
def inferTable (l : Layout ν) (blocks : List (Block ν)) (region : Option Region)
    (anchors : List Anchor) (found : FoundAnchors ν) (rowTolerance : ν) : Table ν :=
  match blocks with
  | [] => ⟨[], []⟩
  | b :: _ =>
    let page := b.box.page
    let candidates := headerCandidates found page [] (headerNames region anchors)
    match blocks.filter fun b => !b.isAmong candidates with
    | [] => ⟨[], []⟩
    | first :: more =>
      let data := first :: more
      match tableHeaders rowTolerance candidates first more with
      | [] => .withoutAnchors l rowTolerance (startOf found page region) data
      | h :: hs => .ofHeaders rowTolerance (h :: hs) data

/-- The blocks of a row that are in a column. A block that begins within `tolerance` before a
column is in it. -/
def Table.cell (t : Table ν) (column : Nat) (tolerance : ν) (row : List (Block ν)) :
    List (Block ν) :=
  row.filter fun b => columnIndexAt (b.box.x0 + tolerance) t.columns == some column

/-- The texts of a column, one for each row; it is empty for a row without a block there. -/
def Table.columnTexts (t : Table ν) (column : Nat) (tolerance : ν) : List String :=
  t.rows.map fun row => joinTexts (t.cell column tolerance row)

end PageExtract
