/-
The endpoints of the server.

The words of a path may be in upper or lower case, and a slash may stand at its end.

* `Endpoint` : what a request can be about;
* `Target.ofText` : the path and the query of a target;
* `Resource.ofPath` : what a path names;
* `Endpoint.ofRequest` : the endpoint of a request.
-/
import PageExtract.Http.Basic
import PageExtract.Http.Query

namespace PageExtract

/-- The path of a target, in its parts, and its query. -/
structure Target where
  path : List (List Char)
  query : List Char
deriving DecidableEq, Repr, Inhabited

/-- The path and the query of a target. The slash at the beginning and one at the end are not
counted, and neither is what follows a number sign. -/
def Target.ofText (target : String) : Target :=
  let meant := target.toList.takeWhile (· != '#')
  let (path, query) := (Text.cutAt ['?'] meant).getD (meant, [])
  let parts := (Text.splitOn '/' path).drop 1
  ⟨if parts.getLast? = some [] then parts.dropLast else parts, query⟩

/-- What paths name. -/
inductive Resource where
  | health
  | processors
  | processor (id : String)
  | execution (id : String)
  | bestExecution
  | validation
  | fingerprint
deriving DecidableEq, Repr, Inhabited

/-- Why a path names nothing. -/
inductive PathFault where
  | unknown
  /-- An id is not well formed. -/
  | undecodable (id : String)
deriving DecidableEq, Repr, Inhabited

/-- Whether a part of a path is a word. -/
def isWord (word : String) (part : List Char) : Bool :=
  part.map Char.toLower == word.toList

/-- What is named by an id as a path writes it. -/
def Resource.ofId (resource : String → Resource) (part : List Char) :
    Except PathFault Resource :=
  if part.isEmpty then .error .unknown
  else match Percent.decode? (String.ofList part) with
    | some id => .ok (resource id)
    | none => .error (.undecodable (String.ofList part))

/-- What a path names. -/
def Resource.ofPath : List (List Char) → Except PathFault Resource
  | [a] =>
    if isWord "health" a then .ok health
    else if isWord "processors" a then .ok processors
    else if isWord "execute" a then .ok bestExecution
    else if isWord "validate" a then .ok validation
    else .error .unknown
  | [a, b] =>
    if isWord "processors" a then ofId processor b
    else if isWord "layout" a && isWord "fingerprint" b then .ok fingerprint
    else .error .unknown
  | [a, b, c] =>
    if isWord "processors" a && isWord "execute" c then ofId execution b else .error .unknown
  | _ => .error .unknown

/-- What a request can be about. -/
inductive Endpoint where
  | health
  | createProcessor
  /-- The processors, or those of a document type. -/
  | listProcessors (documentType : Option String)
  | getProcessor (id : String)
  | deleteProcessor (id : String)
  /-- Runs the processor of an id. -/
  | executeProcessor (id : String)
  /-- Runs a processor that is named in the body, or the one that matches best. -/
  | execute
  | validate
  | fingerprint
deriving DecidableEq, Repr, Inhabited

/-- The endpoint for a method of a resource. -/
def Resource.endpoint? (query : List Char) : Method → Resource → Option Endpoint
  | .get, .health => some .health
  | .get, .processors => some (.listProcessors (Query.text? "document_type" query))
  | .get, .processor id => some (.getProcessor id)
  | .delete, .processor id => some (.deleteProcessor id)
  | .post, .processors => some .createProcessor
  | .post, .execution id => some (.executeProcessor id)
  | .post, .bestExecution => some .execute
  | .post, .validation => some .validate
  | .post, .fingerprint => some .fingerprint
  | _, _ => none

/-- The endpoint for a method and a target. A request for the head of a response is about what the
whole response would be about. -/
def Endpoint.ofRequest (method : Method) (target : String) : Except PathFault Endpoint :=
  let t := Target.ofText target
  let method := if method = .head then .get else method
  match Resource.ofPath t.path with
  | .ok r =>
    match r.endpoint? t.query method with
    | some e => .ok e
    | none => .error .unknown
  | .error e => .error e

end PageExtract
