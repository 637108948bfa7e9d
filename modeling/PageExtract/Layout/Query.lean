/-
Questions about layouts.

* `blocksOnPage`, `blocksOfKind`, `findText`, `findTextExact`, `findPattern` : blocks by page, kind
  and text;
* `blocksNear`, `blocksInRow`, `blocksInColumn`, `blocksInBox`, `blocksBetween` : blocks by place;
* `readingBefore`, `readingOrder` : page by page, from top to bottom, from left to right.
-/
import PageExtract.Layout.Basic
import PageExtract.Layout.Sort
import PageExtract.Pattern.Matcher
import PageExtract.Text.Find

namespace PageExtract

variable {ν : Type} [Numeric ν]

/-- Whether the first number differs from the second and is less, or is equal and `later`
holds. -/
def lessThen (x y : ν) (later : Bool) : Bool := x < y || (!(y < x) && later)

/-- Whether a block comes before another one in reading order. -/
def readingBefore (a b : Block ν) : Bool :=
  lessThen a.box.page b.box.page
    (lessThen a.box.y0 b.box.y0 (a.box.x0 < b.box.x0))

/-- Whether a block lies above another one, or beside it to the left. -/
def aboveOrLeft (a b : Block ν) : Bool := lessThen a.box.y0 b.box.y0 (a.box.x0 < b.box.x0)

/-- Whether a block begins to the left of another one. -/
def leftOf (a b : Block ν) : Bool := a.box.x0 < b.box.x0

/-- Blocks in reading order. -/
def readingOrder (bs : List (Block ν)) : List (Block ν) := sortBy readingBefore bs

/-- Whether a text occurs in a block, ignoring case. -/
def hasText {ν : Type} (part : String) (b : Block ν) : Bool :=
  Text.contains (Text.lower b.text) (Text.lower part)

namespace Layout

/-- The blocks of a page. -/
def blocksOnPage (l : Layout ν) (page : ν) : List (Block ν) :=
  l.blocks.filter fun b => b.box.page == page

/-- The blocks of a kind. -/
def blocksOfKind {ν : Type} (l : Layout ν) (kind : BlockKind) : List (Block ν) :=
  l.blocks.filter fun b => b.kind = kind

/-- The blocks in whose text a text occurs. -/
def findText {ν : Type} (l : Layout ν) (part : String) (caseSensitive : Bool) : List (Block ν) :=
  l.blocks.filter fun b =>
    if caseSensitive then Text.contains b.text part else hasText part b

/-- The blocks that have exactly a text. -/
def findTextExact {ν : Type} (l : Layout ν) (text : String) (caseSensitive : Bool) :
    List (Block ν) :=
  l.blocks.filter fun b =>
    if caseSensitive then b.text == text else Text.lower b.text == Text.lower text

/-- The blocks in whose text a pattern matches. -/
def findPattern {ν : Type} (l : Layout ν) (p : Pattern) : List (Block ν) :=
  l.blocks.filter fun b => p.test b.text

/-- The other blocks of the page whose centres are within a distance. -/
def blocksNear (l : Layout Float) (ref : Block Float) (distance : Float) : List (Block Float) :=
  l.blocks.filter fun b =>
    b.id != ref.id && b.box.page == ref.box.page && b.box.distance ref.box ≤ distance

/-- The other blocks of the page whose centres are level with that of a block, from left to
right. -/
def blocksInRow (l : Layout ν) (ref : Block ν) (tolerance : ν) : List (Block ν) :=
  sortBy leftOf (l.blocks.filter fun b =>
    b.id != ref.id && b.box.page == ref.box.page &&
      Numeric.abs (b.box.centerY - ref.box.centerY) ≤ tolerance)

/-- The other blocks of the page whose centres are above or below that of a block, from top to
bottom. -/
def blocksInColumn (l : Layout ν) (ref : Block ν) (tolerance : ν) : List (Block ν) :=
  sortBy (fun a b => a.box.y0 < b.box.y0) (l.blocks.filter fun b =>
    b.id != ref.id && b.box.page == ref.box.page &&
      Numeric.abs (b.box.centerX - ref.box.centerX) ≤ tolerance)

/-- The blocks that overlap a box. -/
def blocksInBox (l : Layout ν) (box : Box ν) : List (Block ν) :=
  l.blocks.filter fun b => b.box.overlaps box

/-- The blocks below `start` on its page and, if `finish` is given, not below its top. Blocks on
two pages have nothing between them. -/
def blocksBetween (l : Layout ν) (start : Block ν) (finish : Option (Block ν)) : List (Block ν) :=
  let within (b : Block ν) : Bool :=
    start.box.y1 ≤ b.box.y0 && (match finish with
      | some f => decide (b.box.y0 ≤ f.box.y0)
      | none => true)
  if finish.any fun f => !(f.box.page == start.box.page) then []
  else sortBy aboveOrLeft ((l.blocksOnPage start.box.page).filter within)

end Layout

end PageExtract
