/-
Boxes on pages.

Coordinates run from 0 to 1 over a page, from its top left corner. Pages are counted from zero.

* `Box ν` : a box with coordinates of type `ν`;
* `width`, `height`, `centerX`, `centerY`, `area` : its measures;
* `overlaps`, `containsPoint` : common points; touching edges count;
* `union` : the smallest box around some boxes;
* `distance` : the distance between the centres of two boxes.
-/
import PageExtract.Number.Basic

namespace PageExtract

/-- A box: its left, top, right and bottom edges, and its page. -/
structure Box (ν : Type) where
  x0 : ν
  y0 : ν
  x1 : ν
  y1 : ν
  page : ν
deriving DecidableEq, Repr, Inhabited

/-- No box lies around no boxes. -/
inductive UnionError where
  | noBoxes
deriving DecidableEq, Repr, Inhabited

/-- The words of the error. -/
def UnionError.message : UnionError → String
  | noBoxes => "unionBox requires at least one box"

namespace Box

variable {ν : Type} [Numeric ν]

/-- The extent from left to right. -/
def width (b : Box ν) : ν := b.x1 - b.x0

/-- The extent from top to bottom. -/
def height (b : Box ν) : ν := b.y1 - b.y0

/-- The horizontal position of the centre. -/
def centerX (b : Box ν) : ν := (b.x0 + b.x1) / 2.0

/-- The vertical position of the centre. -/
def centerY (b : Box ν) : ν := (b.y0 + b.y1) / 2.0

/-- The area. -/
def area (b : Box ν) : ν := b.width * b.height

/-- Whether two boxes lie on one page and have a point in common. -/
def overlaps (a b : Box ν) : Bool :=
  a.page == b.page && !(a.x1 < b.x0 || b.x1 < a.x0 || a.y1 < b.y0 || b.y1 < a.y0)

/-- Whether a point of a page lies in a box. -/
def containsPoint (b : Box ν) (x y page : ν) : Bool :=
  b.page == page && b.x0 ≤ x && x ≤ b.x1 && b.y0 ≤ y && y ≤ b.y1

/-- The smallest box around a box and others of its page. -/
def around (b : Box ν) (bs : List (Box ν)) : Box ν :=
  ⟨Numeric.least b.x0 (bs.map (·.x0)), Numeric.least b.y0 (bs.map (·.y0)),
    Numeric.greatest b.x1 (bs.map (·.x1)), Numeric.greatest b.y1 (bs.map (·.y1)), b.page⟩

/-- The smallest box around some boxes of one page. -/
def union (bs : List (Box ν)) : Except UnionError (Box ν) :=
  match bs with
  | [] => .error .noBoxes
  | b :: bs => .ok (b.around bs)

/-- The length of the way between two points. The larger of the two differences is the unit of
measure, so that no square is out of range. -/
def wayLength (dx dy : Float) : Float :=
  let x := dx.abs
  let y := dy.abs
  let size := if x < y then y else x
  if x.isInf || y.isInf then 1.0 / 0.0
  else if x == 0.0 && y == 0.0 then 0.0
  else ((x / size) * (x / size) + (y / size) * (y / size)).sqrt * size

/-- The distance between the centres of two boxes. -/
def distance (a b : Box Float) : Float := wayLength (a.centerX - b.centerX) (a.centerY - b.centerY)

end Box

end PageExtract
