/-
Layouts of PDF documents.

Each cell of each line of a page is a block. Points become parts of the page, and heights are
turned round so that they grow downwards.

* `pageBlocks` : the blocks of a page;
* `PdfDocument`, `PdfDocument.layout` : a document and its layout, with a warning for every page
  without text.
-/
import PageExtract.Layout.Fingerprint
import PageExtract.Pdf.Line

namespace PageExtract

variable {ν : Type} [Numeric ν]

/-- The box of a cell, in parts of a page. -/
def cellBox (first : PlacedItem ν) (more : List (PlacedItem ν)) (page width height : ν) :
    Box ν :=
  let left := Numeric.least first.x (more.map (·.x))
  let right := Numeric.greatest first.right (more.map PlacedItem.right)
  let baseline := Numeric.least first.y (more.map (·.y))
  let top := Numeric.greatest first.top (more.map PlacedItem.top)
  ⟨Numeric.clampUnit (left / width), Numeric.clampUnit ((height - top) / height),
    Numeric.clampUnit (right / width), Numeric.clampUnit ((height - baseline) / height), page⟩

/-- The block of a cell that has a text. -/
def cellBlock (id text : String) (first : PlacedItem ν) (more : List (PlacedItem ν))
    (page width height : ν) : Block ν :=
  let size := Numeric.greatest first.height (more.map (·.height))
  let fontSize := if (0.0 : ν) < size then some size else none
  let box := cellBox first more page width height
  ⟨id, text, box, 100.0, fontSize, false, .infer text box fontSize⟩

/-- The id of a block of a page. -/
def pdfBlockId (page : ν) (n : Nat) : String :=
  let name := Numeric.text page
  s!"p{name}_b{n}"

/-- The blocks of some cells, the first of which is block `n` of its page. -/
def cellBlocks (page width height : ν) (n : Nat) : List (List (PlacedItem ν)) → List (Block ν)
  | [] => []
  | [] :: cells => cellBlocks page width height n cells
  | (i :: is) :: cells =>
    let text := cellText (i :: is)
    if text.isEmpty then cellBlocks page width height n cells
    else cellBlock (pdfBlockId page n) text i is page width height ::
      cellBlocks page width height (n + 1) cells

/-- The blocks of a page. -/
def pageBlocks (items : List (TextItem ν)) (page width height : ν) : List (Block ν) :=
  cellBlocks page width height 0 ((linesOf (items.filterMap TextItem.place?)).flatMap cellsOf)

/-- A page of a document: its size and its text. -/
structure PdfPage (ν : Type) where
  width : ν
  height : ν
  items : List (TextItem ν)
deriving Inhabited

/-- A document: its pages, each of which is there or is broken, with a message. -/
structure PdfDocument (ν : Type) where
  pages : List (Except String (PdfPage ν))
deriving Inhabited

/-- The blocks of a page of a document. -/
def PdfPage.blocks (p : PdfPage ν) (index : Nat) : List (Block ν) :=
  pageBlocks p.items (Numeric.ofNat index) p.width p.height

/-- The warning for a page without text. -/
def emptyPageWarning (number : Nat) : String := s!"Page {number} has no selectable text"

/-- What pages give: blocks, sizes and warnings. -/
structure PdfContent (ν : Type) where
  blocks : List (Block ν)
  sizes : List (ν × ν)
  warnings : List String
deriving Inhabited

/-- What the pages from a position on give; the message of the first broken one, if there is
one. -/
def contentFrom (index : Nat) : List (Except String (PdfPage ν)) → Except String (PdfContent ν)
  | [] => .ok ⟨[], [], []⟩
  | .error message :: _ => .error message
  | .ok p :: pages => do
    let blocks := p.blocks index
    let rest ← contentFrom (index + 1) pages
    let warnings := if blocks.isEmpty then [emptyPageWarning (index + 1)] else []
    return ⟨blocks ++ rest.blocks, (p.width, p.height) :: rest.sizes, warnings ++ rest.warnings⟩

/-- The layout of a document; `limit` says how many blocks its fingerprint is computed from. -/
def PdfDocument.layout (d : PdfDocument ν) (filename : Option String) (limit : Int) :
    Except String (Layout ν) := do
  let content ← contentFrom 0 d.pages
  return ⟨filename, Numeric.ofNat d.pages.length, content.sizes, content.blocks,
    PageExtract.fingerprint content.blocks limit,
    if content.warnings.isEmpty then none else some content.warnings⟩

end PageExtract
