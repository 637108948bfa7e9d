/-
Extracting fields.

* `Extraction.columnOf` : the column that a field is read from: the one with the header that the
  processor names for the field, or else the one that its source names;
* `Extraction.extract` : the value of a field.
-/
import PageExtract.Processor.Source
import PageExtract.Region.Found

namespace PageExtract

/-- Whether a field path has the mark of a sequence. -/
def isRowPath (fieldPath : String) : Bool := Text.contains fieldPath "[]"

/-- The name of a field: the last level of its path, without the mark. -/
def fieldName (fieldPath : String) : String :=
  match (splitChars '.' fieldPath.toList).getLast? with
  | some cs => (Segment.ofChars cs).name
  | none => ""

/-- All of some texts for a field with the mark of a sequence, else the first, if there is one. -/
def rowsOrFirst (fieldPath : String) (texts : List String) : Option (Extracted Float) :=
  if isRowPath fieldPath then some (.many (texts.map .str))
  else texts.head?.map fun s => .one (.str s)

/-- A count as messages show it. -/
def countText (n : Nat) : String := Numeric.text (Float.ofNat n)

/-- What fields are extracted from. -/
structure ExtractionInput where
  layout : Layout Float
  processor : Processor
  anchors : FoundAnchors Float
  regions : FoundRegions Float
  settings : Settings Float

namespace Extraction

/-- The blocks to the right of an anchor on its row, from left to right. -/
def rightOf (input : ExtractionInput) (anchor : Block Float) : List (Block Float) :=
  (input.layout.blocksInRow anchor input.settings.rowTolerance).filter fun b =>
    anchor.box.x1 ≤ b.box.x0 && b.box.x0 - anchor.box.x1 ≤ input.settings.valueSearchDistance

/-- The column of a table that a field is read from, given the one that its source names. -/
def columnOf (e : Extraction) (p : Processor) (t : Table Float) (declared : Nat) : Traced Nat :=
  match p.fieldColumns.bind fun ms => Members.get? ms (fieldName e.fieldPath) with
  | none => pure declared
  | some header =>
    match columnByHeader t.columns header with
    | some column => do
      if column != declared then
        note .debug "extract.column.corrected"
          [logText "field_path" e.fieldPath, logText "header" header,
            logCount "from" declared, logCount "to" column]
      return column
    | none => do
      note .debug "extract.column.header_not_found"
        [logText "field_path" e.fieldPath, logText "header" header]
      return declared

/-- The table in a region. -/
def tableOf (input : ExtractionInput) (region : String) (blocks : List (Block Float)) :
    Table Float :=
  inferTable input.layout blocks (input.processor.regions.find? fun r => r.name == region)
    input.processor.anchors input.anchors input.settings.rowTolerance

/-- The texts of a column of the table in a region. -/
def column (e : Extraction) (input : ExtractionInput) (region : String)
    (blocks : List (Block Float)) (declared : Nat) : Traced (Option (Extracted Float)) := do
  let table := tableOf input region blocks
  let index ← e.columnOf input.processor table declared
  if index < table.columns.length then
    return rowsOrFirst e.fieldPath (table.columnTexts index input.settings.columnTolerance)
  else
    let shown := countText index
    degrade "extract.column.out_of_range"
      s!"Field '{e.fieldPath}': column {shown} not found in region '{region}'"
      [logCount "columns" table.columns.length]
    return none

/-- A text as an extracted value. -/
def oneText (s : String) : Extracted Float := .one (.str s)

/-- What a source says of an anchor. -/
def fromAnchor (input : ExtractionInput) (anchor : String) (take : Block Float → Option String) :
    Option (Extracted Float) :=
  ((Members.get? input.anchors anchor).bind take).map oneText

/-- The blocks of a region that has some. -/
def regionBlocks (input : ExtractionInput) (region : String) : List (Block Float) :=
  (Members.get? input.regions region).getD []

/-- The value of a source, before the transform. -/
def ofSource (e : Extraction) (input : ExtractionInput) :
    Source → Traced (Option (Extracted Float))
  | .literal value => pure (some (oneText value))
  | .anchorText anchor => pure (fromAnchor input anchor fun b => some b.text)
  | .anchorNext anchor =>
    pure (fromAnchor input anchor fun b => (rightOf input b).head?.map (·.text))
  | .anchorRight anchor index =>
    pure (fromAnchor input anchor fun b =>
      ((rightOf input b).filter fun c => isNumericText c.text)[index]?.map
        fun c => Text.trim c.text)
  | .regionText region =>
    match regionBlocks input region with
    | [] => pure none
    | blocks => pure (some (oneText (joinTexts blocks)))
  | .regionRows region =>
    match regionBlocks input region with
    | [] => pure none
    | blocks =>
      pure (rowsOrFirst e.fieldPath
        ((groupRows input.settings.rowTolerance blocks).map joinTexts))
  | .regionColumn region declared =>
    match regionBlocks input region with
    | [] => pure none
    | blocks => e.column input region blocks declared

/-- The value of a field before the transform. -/
def raw (e : Extraction) (input : ExtractionInput) : Traced (Option (Extracted Float)) :=
  match Source.parse? e.source with
  | some source => e.ofSource input source
  | none => do
    degrade "extract.source.invalid"
      s!"Field '{e.fieldPath}': unrecognized source '{e.source}'" []
    return none

/-- A value after the transform of a field, if it has one. -/
def transformed (e : Extraction) (value : Extracted Float) : Extracted Float :=
  match e.transform with
  | some t => t.apply value
  | none => value

/-- The value of a field, if there is one. -/
def extract (e : Extraction) (input : ExtractionInput) : Traced (Option (Extracted Float)) := do
  let value ← e.raw input
  return value.map e.transformed

end Extraction

end PageExtract
