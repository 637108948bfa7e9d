/-
Layouts as plain values.

A layout is accepted if every part has the kind and the range it should have, every block lies on a
page of the document, and no two blocks have one id. Page sizes that are not given are those of the
unit square, and a fingerprint that is not given is computed.

* `StoredLayout.reader` : reading a layout, with what may be left out, from a plain value;
* `Layout.ofInput` : from a plain value or from text that writes one;
* `Layout.toValue` : a layout as a plain value;
* `LayoutError` : why there is no layout.
-/
import PageExtract.Layout.Fingerprint
import PageExtract.Schema.Reader
import PageExtract.Value.JsonReader

namespace PageExtract

open Reader

section

variable {ν : Type} [Numeric ν]

/-- A number from 0 to `most`. -/
def rangeReader (most : Nat) : Reader ν ν := fun v =>
  ((number v).flagIf (· < 0.0) (.tooLow 0)).flagIf (Numeric.ofInt most < ·) (.tooHigh most)

/-- A number above zero. -/
def positiveReader : Reader ν ν := fun v => (number v).flagIf (· ≤ 0.0) .notPositive

/-- A whole number. -/
def wholeReader : Reader ν ν := fun v => (number v).flagIf (!Numeric.isInteger ·) .notWhole

/-- A whole number that is not below zero. -/
def countReader : Reader ν ν := fun v => (wholeReader v).flagIf (· < 0.0) (.tooLow 0)

/-- A whole number above zero. -/
def positiveCountReader : Reader ν ν := fun v => (wholeReader v).flagIf (· ≤ 0.0) .notPositive

/-- Whether the edges of a box are the wrong way round. -/
def Box.isCrossed (b : Box ν) : Bool := !(b.x0 ≤ b.x1 && b.y0 ≤ b.y1)

/-- A box inside the unit square, with its edges the right way round. -/
def Box.reader : Reader ν (Box ν) := fun v =>
  let read (ms : Members (Value ν)) : Checked (Box ν) :=
    Box.mk <$> member "x0" (rangeReader 1) ms <*> member "y0" (rangeReader 1) ms
      <*> member "x1" (rangeReader 1) ms <*> member "y1" (rangeReader 1) ms
      <*> member "page" countReader ms
  (object read v).flagIf isCrossed .crossedEdges

/-- The kind of a block; `title` is an old name of headers. -/
def BlockKind.reader : Reader ν BlockKind
  | some (.str "title") => pure .header
  | v => orElse .text (oneOf every name) v

/-- A block. -/
def Block.reader : Reader ν (Block ν) := object fun ms =>
  Block.mk <$> member "id" name ms <*> member "text" Reader.text ms
    <*> member "bbox" Box.reader ms
    <*> member "confidence" (orElse 100.0 (rangeReader 100)) ms
    <*> member "font_size" (nullable positiveReader) ms
    <*> member "is_bold" (orElse false flag) ms
    <*> member "block_type" BlockKind.reader ms

/-- The issues that the blocks from a position on have with the document and with each other.
`seen` holds the ids of the blocks before. -/
def blockIssues (pageCount : ν) (seen : List String) (position : Nat) :
    List (Block ν) → List Issue
  | [] => []
  | b :: bs =>
    let place := ["blocks", toString position]
    (if pageCount ≤ b.box.page then
      [⟨place ++ ["bbox", "page"],
        .pageOutside (Numeric.text b.box.page) (Numeric.text pageCount)⟩] else []) ++
    (if seen.contains b.id then [⟨place ++ ["id"], .repeatedBlock b.id⟩] else []) ++
    blockIssues pageCount (b.id :: seen) (position + 1) bs

/-- A layout as it is stored: what may be left out is optional. -/
structure StoredLayout (ν : Type) where
  filename : Option String
  pageCount : ν
  pageSizes : List (ν × ν)
  blocks : List (Block ν)
  fingerprint : Option String
  warnings : Option (List String)

/-- A stored layout. -/
def StoredLayout.reader : Reader ν (StoredLayout ν) := fun v =>
  let read (ms : Members (Value ν)) : Checked (StoredLayout ν) :=
    StoredLayout.mk <$> member "filename" (optional Reader.text) ms
      <*> member "page_count" positiveCountReader ms
      <*> member "page_dimensions" (orElse [] (list (pair number))) ms
      <*> member "blocks" (list Block.reader) ms
      <*> member "layout_hash" (optional Reader.text) ms
      <*> member "warnings" (optional (list Reader.text)) ms
  (object read v).flagAll fun l => blockIssues l.pageCount [] 0 l.blocks

/-- A stored layout with what was left out, unless it has more pages than can be given a size;
`limit` says how many blocks a missing fingerprint is computed from. -/
def StoredLayout.complete? (limit : Int) (l : StoredLayout ν) : Option (Layout ν) :=
  let sizes := if l.pageSizes.isEmpty then unitPages? l.pageCount else some l.pageSizes
  sizes.map fun sizes =>
    ⟨l.filename, l.pageCount, sizes, l.blocks,
      l.fingerprint.getD (PageExtract.fingerprint l.blocks limit), l.warnings⟩

end

/-- Why there is no layout. -/
inductive LayoutError where
  /-- The text is no JSON. -/
  | unreadable
  | malformed (issues : List Issue)
  /-- There are more pages than can be given a size. -/
  | tooManyPages
  /-- The name and the media type of a document do not say how it is read. -/
  | noProvider (filename mime : Option String)
deriving DecidableEq, Repr, Inhabited

/-- What is wrong, one message for each issue. -/
def LayoutError.issues : LayoutError → List String
  | unreadable => ["invalid JSON"]
  | malformed issues => issues.map Issue.message
  | tooManyPages => []
  | noProvider filename mime =>
    let name := filename.getD "-"
    let kind := mime.getD "-"
    [s!"no layout provider for filename={name} mime={kind}"]

/-- The words of the error. -/
def LayoutError.message : LayoutError → String
  | tooManyPages => "Invalid array length"
  | e => "Invalid layout: " ++ "; ".intercalate e.issues

/-- The layout that a plain value holds. -/
def Layout.ofValue {ν : Type} [Numeric ν] (limit : Int) (v : Option (Value ν)) :
    Except LayoutError (Layout ν) :=
  match (StoredLayout.reader v).toExcept with
  | .ok stored =>
    match stored.complete? limit with
    | some l => .ok l
    | none => .error .tooManyPages
  | .error issues => .error (.malformed issues)

/-- The layout that a plain value holds, or that is written by a text. -/
def Layout.ofInput (limit : Int) : Option (Value Float) → Except LayoutError (Layout Float)
  | some (.str s) =>
    match Value.parse? s with
    | some v => ofValue limit (some v)
    | none => .error .unreadable
  | v => ofValue limit v

/-- A box as a plain value. -/
def Box.toValue {ν : Type} (b : Box ν) : Value ν :=
  .map [("x0", .num b.x0), ("y0", .num b.y0), ("x1", .num b.x1), ("y1", .num b.y1),
    ("page", .num b.page)]

/-- A block as a plain value. -/
def Block.toValue {ν : Type} (b : Block ν) : Value ν :=
  .map ([("id", .str b.id), ("text", .str b.text), ("bbox", b.box.toValue),
      ("confidence", .num b.confidence)] ++
    optionalMember "font_size" .num b.fontSize ++
    [("is_bold", .bool b.bold), ("block_type", .str b.kind.name)])

/-- A layout as a plain value. -/
def Layout.toValue {ν : Type} (l : Layout ν) : Value ν :=
  .map (optionalMember "filename" .str l.filename ++
    [("page_count", .num l.pageCount),
      ("page_dimensions", .list (l.pageSizes.map fun s => .list [.num s.1, .num s.2])),
      ("blocks", .list (l.blocks.map Block.toValue)),
      ("layout_hash", .str l.fingerprint)] ++
    optionalMember "warnings" textsValue l.warnings)

end PageExtract
