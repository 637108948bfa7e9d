/-
Requests and responses.

* `Method`, `Request`, `Response` : what is sent to the server, and what it sends back.
-/
import PageExtract.Value.Basic

namespace PageExtract

/-- The methods of requests. -/
inductive Method where
  | get
  | head
  | post
  | delete
  | options
  /-- A method that no endpoint has. -/
  | other
deriving DecidableEq, Repr, Inhabited

/-- The name of a method that has one. -/
def Method.name : Method → String
  | get => "GET"
  | head => "HEAD"
  | post => "POST"
  | delete => "DELETE"
  | options => "OPTIONS"
  | other => ""

/-- The methods with names. -/
def Method.every : List Method := [get, head, post, delete, options]

/-- The method of a name in upper or lower case. -/
def Method.ofName (s : String) : Method :=
  (every.find? (·.name == String.ofList (s.toList.map Char.toUpper))).getD other

theorem Method.ofName_name (m : Method) : ofName m.name = m := by cases m <;> rfl

/-- A request. -/
structure Request where
  method : Method
  /-- The path and the query. -/
  target : String
  /-- The id that the sender gives the request. -/
  requestId : Option String
  body : Option (Value Float)
deriving Inhabited

/-- A response. -/
structure Response where
  status : Nat
  /-- The id of the request. -/
  requestId : Option String
  /-- The text of the body. -/
  body : Option String
deriving DecidableEq, Repr, Inhabited

end PageExtract
