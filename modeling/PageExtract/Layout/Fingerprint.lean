/-
Fingerprints of layouts.

A fingerprint tells the template of a document: it depends on the place, the size and the kind of
the first blocks and never on their text.

* `structureText` : what a fingerprint is the digest of;
* `fingerprint` : the digest;
* `Layout.ofBlocks?` : a layout made of blocks.
-/
import PageExtract.Digest.Md5
import PageExtract.Layout.Basic

namespace PageExtract

variable {ν : Type} [Numeric ν]

/-- A measure has two decimal places. -/
def measureText (x : ν) : String := Numeric.placed 2 x

/-- What a fingerprint knows of a block: its left and top edges, its extents and its kind. -/
def Block.structureText (b : Block ν) : String :=
  ",".intercalate [measureText b.box.x0, measureText b.box.y0, measureText b.box.width,
    measureText b.box.height, b.kind.name]

/-- The first `limit` elements; a negative limit leaves off as many at the end. -/
def takeTo {α : Type} (limit : Int) (xs : List α) : List α :=
  if limit < 0 then xs.take (xs.length - limit.natAbs) else xs.take limit.toNat

/-- What the fingerprint of some blocks is the digest of. -/
def structureText (blocks : List (Block ν)) (limit : Int) : String :=
  "|".intercalate ((takeTo limit blocks).map Block.structureText)

/-- The fingerprint of the first `limit` blocks. -/
def fingerprint (blocks : List (Block ν)) (limit : Int) : String :=
  Md5.hex (structureText blocks limit)

/-- What is known of a document apart from its blocks. -/
structure LayoutOptions (ν : Type) where
  filename : Option String
  pageCount : Option ν
  pageSizes : Option (List (ν × ν))
  fingerprintBlocks : Int
deriving Inhabited

/-- The number of pages from which on page sizes are no longer filled in. -/
def pageLimit : Nat := Nat.pow 2 32

/-- Pages of which no size is known have the unit square. -/
def unitPages? (count : ν) : Option (List (ν × ν)) :=
  if Numeric.ofNat pageLimit ≤ count then none
  else some (List.replicate (Numeric.toNat count) (1.0, 1.0))

/-- The number of pages that some blocks lie on; at least one. -/
def pagesOf (blocks : List (Block ν)) : ν :=
  Numeric.greater 1.0 (Numeric.greatest (-1.0) (blocks.map (·.box.page)) + 1.0)

/-- A layout made of blocks, unless it has more pages than can be given a size. -/
def Layout.ofBlocks? (blocks : List (Block ν)) (o : LayoutOptions ν) : Option (Layout ν) :=
  let pageCount := o.pageCount.getD (pagesOf blocks)
  let sizes := match o.pageSizes with
    | some sizes => some sizes
    | none => unitPages? pageCount
  sizes.map fun sizes =>
    ⟨o.filename, pageCount, sizes, blocks,
      PageExtract.fingerprint blocks o.fingerprintBlocks, none⟩

end PageExtract
