/-
Documents as bytes.

The name or the media type of a document says whether it is a PDF document or a layout written as
JSON. How the bytes of a PDF document are read is left to a reader that is given.

* `DocumentInfo`, `DocumentKind.guess?` : what is said of a document, and its kind;
* `loadDocument` : the layout of a document;
* `runDocument` : a run of a processor on a document.
-/
import PageExtract.Bytes.Utf8
import PageExtract.Execution
import PageExtract.Layout.Reader
import PageExtract.Pdf.Basic

namespace PageExtract

/-- The kinds of documents. -/
inductive DocumentKind where
  | pdf
  | json
deriving DecidableEq, Repr, Inhabited

/-- The name of a kind. -/
def DocumentKind.name : DocumentKind → String
  | pdf => "pdf"
  | json => "json"

/-- What is said of a document. -/
structure DocumentInfo where
  filename : Option String
  /-- The media type. -/
  mime : Option String
deriving DecidableEq, Repr, Inhabited

/-- The kind of a document, by the end of its name or by its media type. -/
def DocumentKind.guess? (info : DocumentInfo) : Option DocumentKind :=
  let name := Text.lower (info.filename.getD "")
  let mime := Text.lower (info.mime.getD "")
  if Text.endsWith name ".pdf" || Text.contains mime "application/pdf" then some pdf
  else if Text.endsWith name ".json" || Text.contains mime "application/json" then some json
  else none

/-- How the bytes of PDF documents are read; bytes that are none lead to a message. -/
abbrev PdfReader := List UInt8 → Except String (PdfDocument Float)

/-- Why there is no layout of a document. -/
inductive DocumentError where
  | layout (error : LayoutError)
  /-- The PDF document, or one of its pages, is broken. -/
  | brokenPdf (message : String)
deriving DecidableEq, Repr, Inhabited

/-- A layout with the name of its document, if it has none itself. -/
def Layout.named {ν : Type} (l : Layout ν) (filename : Option String) : Layout ν :=
  if (filename.getD "").isEmpty || !(l.filename.getD "").isEmpty then l
  else { l with filename := filename }

/-- The layout that is written as JSON. -/
def loadJson (limit : Int) (bytes : List UInt8) (info : DocumentInfo) :
    Except LayoutError (Layout Float) := do
  return (← Layout.ofInput limit (some (.str (Utf8.decode bytes)))).named info.filename

/-- The layout of a PDF document. -/
def loadPdf (readPdf : PdfReader) (limit : Int) (bytes : List UInt8) (info : DocumentInfo) :
    Except String (Layout Float) := do
  (← readPdf bytes).layout info.filename limit

/-- The layout of a document; `limit` says how many blocks its fingerprint is computed from. -/
def loadDocument (readPdf : PdfReader) (limit : Int) (bytes : List UInt8) (info : DocumentInfo) :
    Except DocumentError (Layout Float) :=
  match DocumentKind.guess? info with
  | some .json => (loadJson limit bytes info).mapError .layout
  | some .pdf => (loadPdf readPdf limit bytes info).mapError .brokenPdf
  | none => .error (.layout (.noProvider info.filename info.mime))

/-- A result with the warnings of its layout before its own; it needs a review if there are
some. -/
def Execution.withWarnings (e : Execution) (warnings : List String) : Execution :=
  if warnings.isEmpty then e
  else { e with warnings := warnings ++ e.warnings, status := .needsReview }

/-- Why a run on a document has no result. -/
inductive RunError where
  | document (error : DocumentError)
  | execution (error : ExecutionError)
deriving DecidableEq, Repr, Inhabited

/-- Runs a processor on a document. -/
def runDocument (readPdf : PdfReader) (s : Settings Float) (limit : Int) (bytes : List UInt8)
    (info : DocumentInfo) (p : Processor) : Except RunError Execution := do
  let l ← (loadDocument readPdf limit bytes info).mapError .document
  let e ← (execute s l p).value.mapError .execution
  return e.withWarnings (l.warnings.getD [])

end PageExtract
