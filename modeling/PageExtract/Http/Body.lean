/-
The bodies of requests.

* `ExecuteBody`, `RouteBody`, `ValidateBody`, `FingerprintBody` : what bodies hold;
* `ExecuteBody.reader` and so on : how they are read.
-/
import PageExtract.Processor.Reader

namespace PageExtract

open Reader

/-- A layout, or a document with its bytes in base 64. -/
structure ExecuteBody where
  layout : Option (Value Float)
  bytes : Option String
  filename : Option String
  mime : Option String
deriving Inhabited

/-- A layout, and the id of a processor if one is chosen. -/
structure RouteBody where
  layout : Option (Value Float)
  processorId : Option String
deriving Inhabited

/-- Data and the rules they should follow. -/
structure ValidateBody where
  data : Members (Value Float)
  validations : List Validation
deriving Inhabited

/-- A layout. -/
structure FingerprintBody where
  layout : Option (Value Float)
deriving Inhabited

/-- The body of a request to run a processor. -/
def ExecuteBody.reader : Reader Float ExecuteBody := object fun ms =>
  ExecuteBody.mk <$> member "layout" anything ms <*> member "data_base64" (optional name) ms
    <*> member "filename" (optional text) ms <*> member "mime" (optional text) ms

/-- The body of a request to run a processor that matches. -/
def RouteBody.reader : Reader Float RouteBody := object fun ms =>
  RouteBody.mk <$> member "layout" anything ms <*> member "processor_id" (optional text) ms

/-- The body of a request to validate data. -/
def ValidateBody.reader : Reader Float ValidateBody := object fun ms =>
  ValidateBody.mk <$> member "data" (object pure) ms
    <*> member "validations" (list Validation.reader) ms

/-- The body of a request for a fingerprint. -/
def FingerprintBody.reader : Reader Float FingerprintBody := object fun ms =>
  FingerprintBody.mk <$> member "layout" anything ms

end PageExtract
