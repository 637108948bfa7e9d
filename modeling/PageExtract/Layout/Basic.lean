/-
Layouts: the text blocks of a document and where they lie.

* `Block`, `BlockKind`, `Layout` : a block, what kind of text it is, and a document;
* `isNumericText`, `BlockKind.infer`, `Block.isLikelyHeader` : reading the kind off a block;
* `Layout.text` : the text of a document.
-/
import PageExtract.Layout.Box
import PageExtract.Text.Blank
import PageExtract.Text.Units

namespace PageExtract

/-- The kinds of text. -/
inductive BlockKind where
  | text
  | header
  | number
deriving DecidableEq, Repr, Inhabited

/-- The name of a kind. -/
def BlockKind.name : BlockKind → String
  | text => "text"
  | header => "header"
  | number => "number"

/-- The kinds, in the order in which messages list them. -/
def BlockKind.every : List BlockKind := [.text, .header, .number]

/-- The kind of a name. -/
def BlockKind.ofName? (s : String) : Option BlockKind := every.find? fun k => k.name == s

/-- A text block. -/
structure Block (ν : Type) where
  id : String
  text : String
  box : Box ν
  /-- How sure the recognition of the text is, from 0 to 100. -/
  confidence : ν
  fontSize : Option ν
  bold : Bool
  kind : BlockKind
deriving DecidableEq, Repr, Inhabited

/-- A document: its pages and their text blocks. -/
structure Layout (ν : Type) where
  filename : Option String
  pageCount : ν
  /-- The width and the height of each page. -/
  pageSizes : List (ν × ν)
  blocks : List (Block ν)
  fingerprint : String
  warnings : Option (List String)
deriving DecidableEq, Repr, Inhabited

/-- Whether one of some blocks has the id of a block. -/
def Block.isAmong {ν : Type} (b : Block ν) (bs : List (Block ν)) : Bool :=
  bs.any fun c => c.id == b.id

/-- Whether a run of characters is groups of digits with a point or a comma between them, and
perhaps a percent sign at the end. `inGroup` says whether a digit has just been read. -/
def isDigitGroups (inGroup : Bool) : List Char → Bool
  | [] => inGroup
  | ['%'] => inGroup
  | c :: cs =>
    if c.isDigit then isDigitGroups true cs
    else if c == '.' || c == ',' then inGroup && isDigitGroups false cs
    else false

/-- Whether a text is a number as tables show them, blank characters around it aside. -/
def isNumericText (s : String) : Bool :=
  isDigitGroups false (Numeral.sign (Text.trimChars s.toList)).2

variable {ν : Type} [Numeric ν]

/-- Whether a font size is that of headings. -/
def isLargeFont (fontSize : Option ν) : Bool :=
  match fontSize with
  | some size => 14.0 < size
  | none => false

/-- Whether a block is a heading: large text in the top fifth of a page. -/
def Block.isLikelyHeader (b : Block ν) : Bool := isLargeFont b.fontSize && b.box.y0 < 0.2

/-- The kind of a block: large text near the top is a header, digits apart from hyphens, slashes
and points are a number, and so is any short text with a digit. -/
def BlockKind.infer (text : String) (box : Box ν) (fontSize : Option ν) : BlockKind :=
  let cs := text.toList
  let digits := cs.filter fun c => !(c == '-' || c == '/' || c == '.')
  if isLargeFont fontSize && box.y0 < 0.15 then .header
  else if !digits.isEmpty && digits.all Char.isDigit then .number
  else if Text.length16 text ≤ 5 && cs.any Char.isDigit then .number
  else .text

/-- The texts of some blocks, with spaces between them. -/
def joinTexts {ν : Type} (bs : List (Block ν)) : String := " ".intercalate (bs.map (·.text))

/-- The text of a document. -/
def Layout.text {ν : Type} (l : Layout ν) : String := joinTexts l.blocks

end PageExtract
