/-
Sources of fields.

A source names an anchor or a region and what is taken of it: `anchor.total.right[1]` is the second
number to the right of the anchor `total`, `region.players.column[0]` the first column of a table.
A source that begins with `literal:` is the text that follows.

* `Source` : the sources;
* `Source.parse?` : the source that a text spells;
* `Source.text` : how a source is spelled.
-/
import PageExtract.Expr.Token

namespace PageExtract

/-- Where the value of a field is taken from. -/
inductive Source where
  /-- The text of an anchor. -/
  | anchorText (anchor : String)
  /-- A number to the right of an anchor. -/
  | anchorRight (anchor : String) (index : Nat)
  /-- The first text to the right of an anchor. -/
  | anchorNext (anchor : String)
  /-- The text of a region. -/
  | regionText (region : String)
  /-- A column of the table in a region. -/
  | regionColumn (region : String) (column : Nat)
  /-- The rows of a region. -/
  | regionRows (region : String)
  | literal (value : String)
deriving DecidableEq, Repr, Inhabited

namespace Source

/-- What follows `head` in a run of characters. -/
def after? (head : String) (cs : List Char) : Option (List Char) :=
  if head.toList.isPrefixOf cs then some (cs.drop head.toList.length) else none

/-- Splits off the leading characters of a name. -/
def nameAndRest (cs : List Char) : List Char × List Char :=
  (cs.takeWhile isNameChar, cs.dropWhile isNameChar)

/-- The number between two brackets. -/
def bracketed? : List Char → Option Nat
  | '[' :: cs =>
    match Numeral.digits cs with
    | ([], _) => none
    | (ds, [']']) => some (Numeral.natOfDigits ds)
    | _ => none
  | _ => none

/-- What is taken of an anchor, as it is spelled after its name. -/
def ofAnchor? (anchor : String) (cs : List Char) : Option Source :=
  if cs == [] || cs == ".text".toList then some (.anchorText anchor)
  else if cs == ".next".toList then some (.anchorNext anchor)
  else if cs == ".right".toList then some (.anchorRight anchor 0)
  else do (.anchorRight anchor) <$> (bracketed? (← after? ".right" cs))

/-- What is taken of a region, as it is spelled after its name. -/
def ofRegion? (region : String) (cs : List Char) : Option Source :=
  if cs == [] || cs == ".text".toList then some (.regionText region)
  else if cs == ".rows".toList then some (.regionRows region)
  else do (.regionColumn region) <$> (bracketed? (← after? ".column" cs))

/-- A name and what is taken of it. -/
def ofNamed? (read : String → List Char → Option Source) (cs : List Char) : Option Source :=
  let (name, rest) := nameAndRest cs
  if isNameChars name then read (String.ofList name) rest else none

/-- The source that a run of characters spells, literals aside. -/
def ofChars? (cs : List Char) : Option Source :=
  match after? "anchor." cs with
  | some rest => ofNamed? ofAnchor? rest
  | none =>
    match after? "region." cs with
    | some rest => ofNamed? ofRegion? rest
    | none => none

/-- The source that a text spells. Blank characters around it do not count, except in a
literal. -/
def parse? (s : String) : Option Source :=
  match after? "literal:" s.toList with
  | some value => some (.literal (String.ofList value))
  | none => ofChars? (Text.trimChars s.toList)

/-- How a source is spelled. -/
def text : Source → String
  | anchorText a => s!"anchor.{a}.text"
  | anchorRight a i => s!"anchor.{a}.right[{i}]"
  | anchorNext a => s!"anchor.{a}.next"
  | regionText r => s!"region.{r}.text"
  | regionColumn r i => s!"region.{r}.column[{i}]"
  | regionRows r => s!"region.{r}.rows"
  | literal v => "literal:" ++ v

end Source

end PageExtract
