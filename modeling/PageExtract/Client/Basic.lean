/-
A client of the service.

* `Client` : where the server is, and the key that is shown to it;
* `ClientCall` : what can be asked for;
* `Client.request` : the request for a call, with `RequestError` if it cannot be sent;
* `ClientCall.answer` : what a response to a call says;
* `ClientError` : why a call has no answer.
-/
import PageExtract.Address.Literal
import PageExtract.Bytes.Base64
import PageExtract.Http.Basic
import PageExtract.Http.Query
import PageExtract.Value.JsonReader

namespace PageExtract

/-- A client: the address that the paths of its calls are added to, and the key that it shows. -/
structure Client where
  base : String
  key : Option String
deriving DecidableEq, Repr, Inhabited

/-- What a client can ask for. -/
inductive ClientCall where
  | health
  | createProcessor (processor : Value Float)
  | listProcessors (documentType : Option String)
  | getProcessor (id : String)
  | deleteProcessor (id : String)
  | execute (id : String) (layout : Value Float)
  | route (layout : Value Float)
  | validate (data validations : Value Float)
  | fingerprint (layout : Value Float)
deriving Inhabited

namespace ClientCall

/-- The method of a call. -/
def method : ClientCall → Method
  | health | listProcessors _ | getProcessor _ => .get
  | deleteProcessor _ => .delete
  | createProcessor _ | execute _ _ | route _ | validate _ _ | fingerprint _ => .post

/-- An id as a part of a path. -/
def idPart (id : String) : String := Percent.encode Percent.isUnreserved id

/-- The id that a call is about. -/
def id? : ClientCall → Option String
  | getProcessor id | deleteProcessor id | execute id _ => some id
  | _ => none

/-- The path of a call. -/
def path : ClientCall → String
  | health => "/health"
  | createProcessor _ | listProcessors _ => "/processors"
  | getProcessor id | deleteProcessor id => "/processors/" ++ idPart id
  | execute id _ => "/processors/" ++ idPart id ++ "/execute"
  | route _ => "/execute"
  | validate _ _ => "/validate"
  | fingerprint _ => "/layout/fingerprint"

/-- The query of a call. An empty document type is none. -/
def query : ClientCall → String
  | listProcessors (some t) => if t.isEmpty then "" else "?" ++ Query.encode "document_type" t
  | _ => ""

/-- The body of a call. -/
def body : ClientCall → Option (Value Float)
  | createProcessor p => some p
  | execute _ l | route l | fingerprint l => some (.map [("layout", l)])
  | validate d vs => some (.map [("data", d), ("validations", vs)])
  | _ => none

end ClientCall

/-- The media type of the bodies that clients send. -/
def Client.mediaType : String := "application/json"

/-- Why a request cannot be sent. -/
inductive RequestError where
  | address (error : AddressError)
  /-- The id of the call holds half a surrogate pair. -/
  | unwritableId
  /-- The key of the client holds a character that a request cannot hold. -/
  | unwritableKey
deriving DecidableEq, Repr, Inhabited

/-- A request as it arrives at a host. -/
structure Arrival where
  host : String
  authorization : Option String
  request : Request
deriving Inhabited

/-- Whether a key may hold a character. -/
def isKeyChar (c : Char) : Bool :=
  c == '\t' || (' ' ≤ c && c ≤ '~') || (0x80 ≤ c.toNat && c.toNat ≤ 0xFF)

/-- A text without the spaces and tabs at its end. -/
def trimmedEnd (s : String) : String :=
  String.ofList (s.toList.reverse.dropWhile fun c => c == ' ' || c == '\t').reverse

/-- What a client says of itself: its key, or else the user of the address. An empty key is
none. -/
def Client.authorization (c : Client) (user : Option String) :
    Except RequestError (Option String) :=
  match c.key.filter (!·.isEmpty) with
  | some key =>
    if key.toList.all isKeyChar then .ok (some (trimmedEnd s!"Bearer {key}"))
    else .error .unwritableKey
  | none => .ok (user.map fun u => s!"Basic {Base64.encode (Utf8.encode u)}")

/-- The request for a call, as it arrives. -/
def Client.request (c : Client) (call : ClientCall) : Except RequestError Arrival := do
  if call.id?.any (·.any Text.isHalf) then throw .unwritableId
  let a ← (Address.ofText (c.base ++ call.path ++ call.query)).mapError .address
  return ⟨a.hostText, ← c.authorization a.user, ⟨call.method, a.target, none, call.body⟩⟩

/-- Why a call has no answer. -/
inductive ClientError where
  /-- The server refused; its body, if there is one, is plain text unless it is JSON. -/
  | refused (status : Nat) (body : Option (Value Float))
  /-- The body of the response is no JSON. -/
  | unreadable
deriving Inhabited

/-- The words of the error. -/
def ClientError.message : ClientError → String
  | refused status _ => s!"layout rules API responded {status}"
  | unreadable => "the response is no JSON"

/-- The text of the body of a response. Some responses have none. -/
def Response.text (r : Response) : String :=
  if r.status = 204 || r.status = 304 then "" else r.body.getD ""

/-- Whether a response says that a request was successful. -/
def Response.isSuccess (r : Response) : Bool := 200 ≤ r.status && r.status < 300

/-- What a response says, if anything. -/
def Response.answer (r : Response) : Except ClientError (Option (Value Float)) :=
  let text := r.text
  let parsed := Value.parse? text
  if !r.isSuccess then
    .error (.refused r.status (if text.isEmpty then none else some (parsed.getD (.str text))))
  else if text.isEmpty then .ok none
  else match parsed with
    | some v => .ok (some v)
    | none => .error .unreadable

/-- What a response to a call says, if anything. A deletion has no answer. -/
def ClientCall.answer (call : ClientCall) (r : Response) :
    Except ClientError (Option (Value Float)) :=
  match call with
  | deleteProcessor _ => r.answer.map fun _ => none
  | _ => r.answer

end PageExtract
