/-
Failures as responses.

* `ServiceError.code`, `ServiceError.status` : the word and the number for an error of the service;
* `ApiError` : why a request has no result;
* `ApiError.status`, `ApiError.toValue` : what is answered then.
-/
import PageExtract.Service.Basic

namespace PageExtract

/-- The word for an error of the service. -/
def ServiceError.code : ServiceError → String
  | processor _ => "invalid_processor"
  | document (.layout .tooManyPages) => "internal_error"
  | document (.layout _) => "invalid_layout"
  | document (.brokenPdf _) => "internal_error"
  | execution (.missingAnchor _) => "required_anchor_missing"
  | execution (.invalidPath _) => "internal_error"
  | notFound _ => "not_found"

/-- The number for an error of the service. -/
def ServiceError.status : ServiceError → Nat
  | processor _ => 400
  | document (.layout .tooManyPages) => 500
  | document (.layout _) => 400
  | document (.brokenPdf _) => 500
  | execution (.missingAnchor _) => 422
  | execution (.invalidPath _) => 500
  | notFound _ => 404

/-- What more is said of an error of the service. -/
def ServiceError.details : ServiceError → Members (Value Float)
  | processor e => [("issues", textsValue e.issues)]
  | document (.layout .tooManyPages) => []
  | document (.layout e) => [("issues", textsValue e.issues)]
  | execution (.missingAnchor e) => if e.anchor.isEmpty then [] else [("anchor", .str e.anchor)]
  | _ => []

/-- Why a request has no result. -/
inductive ApiError where
  /-- The body is not as it should be. -/
  | body (issues : List Issue)
  /-- An id in the path is not well formed. -/
  | undecodable (id : String)
  | service (error : ServiceError)
deriving DecidableEq, Repr, Inhabited

namespace ApiError

/-- The word for the error. -/
def code : ApiError → String
  | body _ => "invalid_request"
  | undecodable _ => "internal_error"
  | service e => e.code

/-- The number for the error. -/
def status : ApiError → Nat
  | body _ => 400
  | undecodable _ => 500
  | service e => e.status

/-- The words of the error. -/
def message : ApiError → String
  | body issues => "Invalid request: " ++ "; ".intercalate (issues.map Issue.message)
  | undecodable id => s!"Failed to decode param '{id}'"
  | service e => e.message

/-- What more is said of the error. -/
def details : ApiError → Members (Value Float)
  | body issues => [("issues", textsValue (issues.map Issue.message))]
  | undecodable _ => []
  | service e => e.details

/-- The error as a plain value. -/
def toValue (e : ApiError) : Value Float :=
  .map ([("error", .str e.code), ("message", .str e.message)] ++ e.details)

end ApiError

end PageExtract
