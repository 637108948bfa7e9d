/-
Rows and columns of tables.

Blocks whose centres are about as high make a row. The columns share the width of a page: the border
between two of them lies halfway between the centres of their headers, the first begins at the left
edge and the last ends at the right edge.

* `groupRows tolerance blocks` : blocks grouped by the height of their centres, from top to bottom;
* `ColumnRange`, `columnRanges` : the extent of each column;
* `columnIndexAt`, `columnByHeader` : the column of a point, and the column of a header.
-/
import PageExtract.Layout.Query

namespace PageExtract

/-- A column: the text of its header, where it begins, and where it ends. -/
structure ColumnRange (ν : Type) where
  header : String
  start : ν
  stop : ν
deriving DecidableEq, Repr, Inhabited

variable {ν : Type} [Numeric ν]

/-! ### Rows -/

/-- Whether the centre of a block is above that of another one. -/
def higher (a b : Block ν) : Bool := a.box.centerY < b.box.centerY

/-- The blocks of a row from left to right. -/
def rowInOrder (bs : List (Block ν)) : List (Block ν) := sortBy leftOf bs

/-- Splits blocks, sorted by the height of their centres, into rows. A block belongs to the row
whose first centre is at `top` if its own centre is within `tolerance` of that. `row` holds the
blocks of the row so far, the last one first. -/
def splitRows (tolerance top : ν) (row : List (Block ν)) :
    List (Block ν) → List (List (Block ν))
  | [] => [rowInOrder row.reverse]
  | b :: bs =>
    if Numeric.abs (b.box.centerY - top) ≤ tolerance then splitRows tolerance top (b :: row) bs
    else rowInOrder row.reverse :: splitRows tolerance b.box.centerY [b] bs

/-- The rows of some blocks, from top to bottom, each from left to right. -/
def groupRows (tolerance : ν) (blocks : List (Block ν)) : List (List (Block ν)) :=
  match sortBy higher blocks with
  | [] => []
  | b :: bs => splitRows tolerance b.box.centerY [b] bs

/-! ### Columns -/

/-- Whether the centre of a block is to the left of that of another one. -/
def centeredLeft (a b : Block ν) : Bool := a.box.centerX < b.box.centerX

/-- The border between the columns of two headers. -/
def columnBorder (a b : Block ν) : ν := (a.box.centerX + b.box.centerX) / 2.0

/-- The columns of headers from left to right, the first of which begins at `start`. -/
def rangesFrom (start : ν) : List (Block ν) → List (ColumnRange ν)
  | [] => []
  | [h] => [⟨h.text, start, 1.0⟩]
  | h :: next :: hs =>
    let border := columnBorder h next
    ⟨h.text, start, border⟩ :: rangesFrom border (next :: hs)

/-- The columns of some headers, from left to right. -/
def columnRanges (headers : List (Block ν)) : List (ColumnRange ν) :=
  rangesFrom 0.0 (sortBy centeredLeft headers)

/-- The column of a horizontal position. The last column has no end. -/
def columnIndexAt (x : ν) : List (ColumnRange ν) → Option Nat
  | [] => none
  | [r] => if r.start ≤ x then some 0 else none
  | r :: rs =>
    if r.start ≤ x ∧ x < r.stop then some 0 else (columnIndexAt x rs).map (· + 1)

/-- A header as it is compared: case and blank characters around it do not count. -/
def headerKey (s : String) : String := Text.lower (Text.trim s)

/-- The first column with a header. -/
def columnByHeader {ν : Type} (ranges : List (ColumnRange ν)) (header : String) : Option Nat :=
  ranges.findIdx? fun r => headerKey r.header == headerKey header

end PageExtract
