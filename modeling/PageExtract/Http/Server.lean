/-
The service behind requests and responses.

A request is given an id if it brings none; the ids of requests and of new processors are issued
from one row. A request for options is answered at once, before that.

* `ApiResult` : what a request leads to;
* `Service.perform` : does what an endpoint is about;
* `Service.respond` : answers a request;
* `Service.respondAll` : answers requests in turn.
-/
import PageExtract.Bytes.Base64
import PageExtract.Http.Body
import PageExtract.Http.Endpoint
import PageExtract.Http.Failure
import PageExtract.Rule.Report

namespace PageExtract

/-- What a request leads to. -/
inductive ApiResult where
  /-- The service is there. -/
  | alive
  | created (processor : Processor)
  | answer (answer : ServiceAnswer)
  | report (report : ValidationReport)
  | fingerprint (fingerprint : String)

/-- The number for a result. -/
def ApiResult.status : ApiResult → Nat
  | created _ => 201
  | answer .done => 204
  | _ => 200

/-- An answer of the service as a plain value, if there is anything to say. -/
def ServiceAnswer.toValue? : ServiceAnswer → Option (Value Float)
  | processor p => some p.toValue
  | summaries ss => some (.list (ss.map ProcessorSummary.toValue))
  | execution e => some e.toValue
  | done => none

/-- A result as a plain value, if there is anything to say. -/
def ApiResult.toValue? : ApiResult → Option (Value Float)
  | alive => some (.map [("ok", .bool true)])
  | created p => some p.toValue
  | answer a => a.toValue?
  | report r => some r.toValue
  | fingerprint f => some (.map [("layout_hash", .str f)])

/-- The body of a request, read. -/
def readBody {α : Type} (r : Reader Float α) (body : Option (Value Float)) : Except ApiError α :=
  (r body).toExcept.mapError .body

/-- The layout in the body of a request. -/
def readLayout (env : Surroundings) (layout : Option (Value Float)) :
    Except ApiError (Layout Float) :=
  (Layout.ofInput env.fingerprintBlocks layout).mapError fun e => .service (.document (.layout e))

/-- What the service is asked to do by a request to run the processor of an id. -/
def ExecuteBody.command (env : Surroundings) (id : String) (b : ExecuteBody) :
    Except ApiError ServiceCommand :=
  match b.bytes with
  | some s => .ok (.executeDocument id (Base64.decode s) ⟨b.filename, b.mime⟩)
  | none => (readLayout env b.layout).map (.execute id)

/-- What the service is asked to do by a request to run a processor that matches. -/
def RouteBody.command (env : Surroundings) (b : RouteBody) : Except ApiError ServiceCommand :=
  (readLayout env b.layout).map fun l => .route l b.processorId

/-- Does what a command asks for, unless there is none. -/
def Service.obey (env : Surroundings) (s : Service) :
    Except ApiError ServiceCommand → Except ApiError ApiResult × Service
  | .error e => (.error e, s)
  | .ok c =>
    let (r, s') := s.step env c
    ((r.map .answer).mapError .service, s')

/-- Does what an endpoint is about. -/
def Service.perform (env : Surroundings) (s : Service) (body : Option (Value Float)) :
    Endpoint → Except ApiError ApiResult × Service
  | .health => (.ok .alive, s)
  | .createProcessor =>
    let (r, s') := s.create env body
    ((r.map .created).mapError .service, s')
  | .listProcessors documentType => s.obey env (.ok (.list documentType))
  | .getProcessor id => s.obey env (.ok (.get id))
  | .deleteProcessor id => s.obey env (.ok (.delete id))
  | .executeProcessor id =>
    s.obey env ((readBody ExecuteBody.reader body).bind (ExecuteBody.command env id))
  | .execute => s.obey env ((readBody RouteBody.reader body).bind (RouteBody.command env))
  | .validate =>
    ((readBody ValidateBody.reader body).map fun b =>
      .report (PageExtract.validate b.data b.validations).value, s)
  | .fingerprint =>
    ((do
      let b ← readBody FingerprintBody.reader body
      return .fingerprint (← readLayout env b.layout).fingerprint), s)

/-- The id of a request, and the service after it has been issued if need be. -/
def Service.identify (env : Surroundings) (s : Service) (r : Request) : String × Service :=
  match r.requestId.map Text.trim with
  | some id => if id.isEmpty then s.issue env else (id, s)
  | none => s.issue env

/-- The number and the body for a result or an error. -/
def outcome : Except ApiError ApiResult → Nat × Option (Value Float)
  | .ok r => (r.status, r.toValue?)
  | .error e => (e.status, some e.toValue)

/-- The response to a request of a method: the number, and a body if there is one and not only the
head of the response is asked for. -/
def Response.toMethod (m : Method) (status : Nat) (id : String) (body : Option (Value Float)) :
    Response :=
  ⟨status, some id, if m = .head then none else body.map Value.compact⟩

/-- Answers a request. A missing body stands for an empty map. -/
def Service.respond (env : Surroundings) (s : Service) (r : Request) : Response × Service :=
  if r.method = .options then (⟨204, none, none⟩, s)
  else
    let (id, s) := s.identify env r
    match Endpoint.ofRequest r.method r.target with
    | .error .unknown => (.toMethod r.method 404 id none, s)
    | .error (.undecodable part) =>
      let e := ApiError.undecodable part
      (.toMethod r.method e.status id (some e.toValue), s)
    | .ok e =>
      let (result, s') := s.perform env (r.body.or (some (.map []))) e
      let (status, body) := outcome result
      (.toMethod r.method status id body, s')

/-- Answers requests in turn. -/
def Service.respondAll (env : Surroundings) (s : Service) : List Request → List Response
  | [] => []
  | r :: rs =>
    let (response, s') := s.respond env r
    response :: s'.respondAll env rs

end PageExtract
