/-
Processors: what is read from documents of one template, and how.

A processor finds anchors in a layout, cuts regions out between them, writes what it extracts into
a tree of records, calculates further fields, and validates the result.

* `Anchor`, `Region`, `Extraction`, `Calculation`, `Validation` : the parts;
* `Processor` : the whole.
-/
import PageExtract.Record.Transform

namespace PageExtract

/-- How the patterns of an anchor are compared with the texts of blocks. -/
inductive PatternKind where
  | exact
  | contains
  | regex
deriving DecidableEq, Repr, Inhabited

/-- The name of a way to compare. -/
def PatternKind.name : PatternKind → String
  | exact => "exact"
  | contains => "contains"
  | regex => "regex"

/-- The ways to compare, in the order in which messages list them. -/
def PatternKind.every : List PatternKind := [.exact, .contains, .regex]

/-- Which of the blocks that match an anchor is meant. -/
inductive LocationHint where
  | firstOccurrence
  | secondOccurrence
  | lastOccurrence
  | topThird
  | topHalf
  | bottomHalf
  | leftHalf
  | rightHalf
deriving DecidableEq, Repr, Inhabited

/-- The name of a hint. -/
def LocationHint.name : LocationHint → String
  | firstOccurrence => "first_occurrence"
  | secondOccurrence => "second_occurrence"
  | lastOccurrence => "last_occurrence"
  | topThird => "top_third"
  | topHalf => "top_half"
  | bottomHalf => "bottom_half"
  | leftHalf => "left_half"
  | rightHalf => "right_half"

/-- The hints, in the order in which messages list them. -/
def LocationHint.every : List LocationHint :=
  [.firstOccurrence, .secondOccurrence, .lastOccurrence, .topThird, .topHalf, .bottomHalf,
    .leftHalf, .rightHalf]

/-- What an anchor is to the table around it. -/
inductive AnchorRole where
  | columnHeader
  | rowLabel
deriving DecidableEq, Repr, Inhabited

/-- The name of a role. -/
def AnchorRole.name : AnchorRole → String
  | columnHeader => "column_header"
  | rowLabel => "row_label"

/-- The roles, in the order in which messages list them. -/
def AnchorRole.every : List AnchorRole := [.columnHeader, .rowLabel]

/-- A landmark: a block that is found by its text. -/
structure Anchor where
  name : String
  patterns : List String
  patternKind : PatternKind
  hint : Option LocationHint
  /-- Whether a document without the anchor is refused. -/
  required : Bool
  role : Option AnchorRole
deriving DecidableEq, Repr, Inhabited

/-- What the name of an end anchor says if a region goes on to the end of its page. -/
def endOfDocument : String := "end_of_document"

/-- What a region holds. -/
inductive RegionKind where
  | table
  | list
  | keyValue
deriving DecidableEq, Repr, Inhabited

/-- The name of a kind of regions. -/
def RegionKind.name : RegionKind → String
  | table => "table"
  | list => "list"
  | keyValue => "key_value"

/-- The kinds of regions, in the order in which messages list them. -/
def RegionKind.every : List RegionKind := [.table, .list, .keyValue]

/-- A part of a page, between two anchors. -/
structure Region where
  name : String
  startAnchor : String
  /-- The name of an anchor, or `endOfDocument`. -/
  endAnchor : String
  kind : RegionKind
  /-- The anchors that head the columns; if not given, all anchors with a role. -/
  headerAnchors : Option (List String)
deriving DecidableEq, Repr, Inhabited

/-- Whether a region goes on to the end of its page. -/
def Region.isOpen (r : Region) : Bool := r.endAnchor == endOfDocument

/-- Where a field comes from. -/
structure Extraction where
  fieldPath : String
  source : String
  transform : Option Transform
deriving DecidableEq, Repr, Inhabited

/-- A field that is calculated from others. -/
structure Calculation where
  fieldPath : String
  formula : String
  description : Option String
deriving DecidableEq, Repr, Inhabited

/-- How much a failing rule matters. -/
inductive Severity where
  | error
  | warning
deriving DecidableEq, Repr, Inhabited

/-- The name of a severity. -/
def Severity.name : Severity → String
  | error => "error"
  | warning => "warning"

/-- The severities, in the order in which messages list them. -/
def Severity.every : List Severity := [.error, .warning]

/-- A rule that extracted data should satisfy. -/
structure Validation where
  name : String
  predicate : String
  severity : Severity
deriving DecidableEq, Repr, Inhabited

/-- A processor. -/
structure Processor where
  id : String
  name : String
  documentType : String
  /-- A positive whole number. -/
  version : Float
  createdAt : String
  updatedAt : String
  /-- The fingerprint of the layouts it is for. -/
  fingerprint : Option String
  /-- Texts that occur in the documents it is for. -/
  textPatterns : List String
  anchors : List Anchor
  regions : List Region
  extractions : List Extraction
  calculations : List Calculation
  validations : List Validation
  /-- The headers under which fields are found, by field name. -/
  fieldColumns : Option (Members String)
deriving Inhabited

end PageExtract
