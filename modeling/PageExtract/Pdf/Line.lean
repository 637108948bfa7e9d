/-
Lines and cells of a PDF page.

Items whose baselines are at most three points apart are on one line. A line falls into cells at
gaps that are wide for its characters.

* `PdfLine`, `linesOf` : the lines of a page, from top to bottom;
* `cellsOf` : the cells of a line, from left to right;
* `cellText` : the text of a cell.
-/
import PageExtract.Layout.Sort
import PageExtract.Pdf.Item

namespace PageExtract

/-- A line: the height of its first baseline, and its items. -/
structure PdfLine (ν : Type) where
  y : ν
  items : List (PlacedItem ν)
deriving Inhabited

variable {ν : Type} [Numeric ν]

/-- Adds an item to the first of some lines that it is on, or as a line of its own. -/
def addToLines (i : PlacedItem ν) : List (PdfLine ν) → List (PdfLine ν)
  | [] => [⟨i.y, [i]⟩]
  | l :: ls =>
    if Numeric.abs (l.y - i.y) ≤ 3.0 then ⟨l.y, l.items ++ [i]⟩ :: ls
    else l :: addToLines i ls

/-- The lines of some items, from top to bottom, each with its items from left to right. -/
def linesOf (items : List (PlacedItem ν)) : List (List (PlacedItem ν)) :=
  let lines := items.foldl (fun ls i => addToLines i ls) []
  (sortBy (fun a b : PdfLine ν => b.y < a.y) lines).map fun l =>
    sortBy (fun a b : PlacedItem ν => a.x < b.x) l.items

/-- The mean width of a character. -/
def meanWidth (width : ν) (count : Nat) : ν :=
  if count = 0 then 0.0 else width / Numeric.ofNat count

/-- The sum of the sizes of some items. -/
def totalSize (size : PlacedItem ν → Nat) (items : List (PlacedItem ν)) : Nat :=
  items.foldl (fun n i => n + size i) 0

/-- How many characters of an item are seen; all of them if none is. -/
def PlacedItem.inkLength (i : PlacedItem ν) : Nat :=
  let ink := Text.length16 (String.ofList (i.text.toList.filter fun c => !Text.isBlank c))
  if ink = 0 then Text.length16 i.text else ink

/-- The gap that parts the cells of a line. -/
def columnGap (line : List (PlacedItem ν)) : ν :=
  let count := totalSize PlacedItem.inkLength line
  Numeric.greater 12.0 (meanWidth (totalWidth line) count * 3.5)

/-- Splits items where the gap after the item before is wider than `gap`. `cell` holds the items
of the cell so far, the last one first. -/
def splitCells (gap right : ν) (cell : List (PlacedItem ν)) :
    List (PlacedItem ν) → List (List (PlacedItem ν))
  | [] => [cell.reverse]
  | i :: is =>
    if gap < i.x - right then cell.reverse :: splitCells gap i.right [i] is
    else splitCells gap i.right (i :: cell) is

/-- The cells of a line. -/
def cellsOf (line : List (PlacedItem ν)) : List (List (PlacedItem ν)) :=
  match line with
  | [] => []
  | i :: is => splitCells (columnGap line) i.right [i] is

/-- The gap that parts the words of a cell. -/
def wordGap (cell : List (PlacedItem ν)) : ν :=
  let count := totalSize (fun i => Text.length16 i.text) cell
  Numeric.greater 2.5 (meanWidth (totalWidth cell) count * 0.6)

/-- Joins items to a text, with spaces at gaps wider than `gap`. The text so far is reversed. -/
def joinItems (gap right : ν) (done : List Char) : List (PlacedItem ν) → List Char
  | [] => done.reverse
  | i :: is =>
    let spaced := if gap < i.x - right && done.head? != some ' ' then ' ' :: done else done
    joinItems gap i.right (i.text.toList.reverse ++ spaced) is

/-- The text of a cell, without blank characters around it. -/
def cellText (cell : List (PlacedItem ν)) : String :=
  match cell with
  | [] => ""
  | i :: is =>
    Text.joined (String.ofList
      (Text.trimChars (joinItems (wordGap cell) i.right i.text.toList.reverse is)))

end PageExtract
