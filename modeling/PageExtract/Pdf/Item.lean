/-
The text items of a PDF page.

A PDF page is measured in points from its lower left corner.

* `TextItem` : a run of text with its transform, as a page lists it;
* `PlacedItem` : where a run of text lies, and how large it is;
* `TextItem.place?` : the place of an item that is not blank.
-/
import PageExtract.Number.Basic
import PageExtract.Text.Blank
import PageExtract.Text.Units

namespace PageExtract

/-- A run of text as a page lists it. -/
structure TextItem (ν : Type) where
  text : String
  /-- The horizontal scale of the transform. -/
  scaleX : ν
  /-- The vertical scale of the transform. -/
  scaleY : ν
  /-- The left end of the baseline. -/
  x : ν
  /-- The height of the baseline. -/
  y : ν
  width : Option ν
  height : Option ν
deriving Inhabited

/-- A run of text and its place: the left end of its baseline, its width and its height. -/
structure PlacedItem (ν : Type) where
  text : String
  x : ν
  y : ν
  width : ν
  height : ν
deriving DecidableEq, Inhabited

/-- A text with spaces for its no-break spaces. -/
def plainSpaces (s : String) : String :=
  String.ofList (s.toList.map fun c => if c.toNat = 0xA0 then ' ' else c)

variable {ν : Type} [Numeric ν]

/-- The width of an item; if it is not known or zero, four points for each character. -/
def TextItem.placedWidth (i : TextItem ν) (text : String) : ν :=
  let w := i.width.getD (Numeric.abs i.scaleX)
  if w == 0.0 then Numeric.ofNat (Text.length16 text) * 4.0 else w

/-- The place of an item, unless it is blank. -/
def TextItem.place? (i : TextItem ν) : Option (PlacedItem ν) :=
  let text := plainSpaces i.text
  if (Text.trim text).isEmpty then none
  else some ⟨text, i.x, i.y, i.placedWidth text, i.height.getD (Numeric.abs i.scaleY)⟩

/-- The right end of an item. -/
def PlacedItem.right (i : PlacedItem ν) : ν := i.x + i.width

/-- The top of an item. -/
def PlacedItem.top (i : PlacedItem ν) : ν := i.y + i.height

/-- The sum of the widths of some items. -/
def totalWidth (items : List (PlacedItem ν)) : ν := items.foldl (fun n i => n + i.width) 0.0

end PageExtract
