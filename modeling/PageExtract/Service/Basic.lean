/-
A service that stores processors and runs them.

Each stored processor has counts of its runs: a run succeeds if its validation does; it fails if
its validation does or if a required anchor is missing. Other errors are not counted.

* `Surroundings` : what the service is given;
* `Service`, `StoredProcessor` : what it stores;
* `create`, `list`, `get`, `delete`, `execute`, `executeDocument`, `route` : what it does;
* `ServiceCommand`, `Service.step` : all of these as steps of one kind.
-/
import PageExtract.Document.Basic
import PageExtract.Processor.Reader
import PageExtract.Processor.Routing

namespace PageExtract

/-- What a service is given. -/
structure Surroundings where
  settings : Settings Float
  /-- How many blocks a missing fingerprint is computed from. -/
  fingerprintBlocks : Int
  /-- The time. -/
  now : String
  /-- The ids that are issued, in order. -/
  newId : Nat → String
  readPdf : PdfReader

/-- A stored processor and how its runs went. -/
structure StoredProcessor where
  processor : Processor
  successes : Nat
  failures : Nat
deriving Inhabited

/-- The stored processors by id, in the order in which they came, and how many ids have been
issued. -/
structure Service where
  stored : Members StoredProcessor
  issued : Nat
deriving Inhabited

/-- Why a service does not do what it is asked to. -/
inductive ServiceError where
  | processor (error : ProcessorError)
  | document (error : DocumentError)
  | execution (error : ExecutionError)
  | notFound (what : String)
deriving DecidableEq, Repr, Inhabited

/-- The words of the error. -/
def ServiceError.message : ServiceError → String
  | processor e => e.message
  | document (.layout e) => e.message
  | document (.brokenPdf message) => message
  | execution e => e.message
  | notFound what => s!"{what} not found"

/-- The error of a run. -/
def ServiceError.ofRun : RunError → ServiceError
  | .document e => .document e
  | .execution e => .execution e

/-- What a list of processors says of one. -/
structure ProcessorSummary where
  id : String
  name : String
  documentType : String
  version : Float
  createdAt : String
  successes : Nat
  failures : Nat
deriving Inhabited

/-- What a list says of a stored processor. -/
def StoredProcessor.summary (s : StoredProcessor) : ProcessorSummary :=
  let p := s.processor
  ⟨p.id, p.name, p.documentType, p.version, p.createdAt, s.successes, s.failures⟩

/-- A summary as a plain value. -/
def ProcessorSummary.toValue (s : ProcessorSummary) : Value Float :=
  .map [("id", .str s.id), ("name", .str s.name), ("document_type", .str s.documentType),
    ("version", .num s.version), ("created_at", .str s.createdAt),
    ("success_count", .num (Float.ofNat s.successes)),
    ("failure_count", .num (Float.ofNat s.failures))]

/-- Whether an input of a new processor has a place for an id and none in it. -/
def needsId : Option (Value Float) → Bool
  | some (.map ms) => !Members.has ms "id"
  | some (.list _) => true
  | _ => false

/-- An input with an id. Nothing is read from the items of a list. -/
def withId (id : String) : Option (Value Float) → Option (Value Float)
  | some (.map ms) => some (.map (ms ++ [("id", .str id)]))
  | some (.list _) => some (.map [("id", .str id)])
  | v => v

/-- The counts after a run. -/
def StoredProcessor.count (s : StoredProcessor) {ε : Type} (missing : ε → Bool)
    (outcome : Except ε Execution) : StoredProcessor :=
  match outcome with
  | .ok e =>
    if e.validation.success then { s with successes := s.successes + 1 }
    else { s with failures := s.failures + 1 }
  | .error e => if missing e then { s with failures := s.failures + 1 } else s

/-- Whether a run ended because a required anchor is missing. -/
def ExecutionError.isMissingAnchor : ExecutionError → Bool
  | missingAnchor _ => true
  | invalidPath _ => false

/-- Whether a run on a document ended because a required anchor is missing. -/
def RunError.isMissingAnchor : RunError → Bool
  | execution e => e.isMissingAnchor
  | document _ => false

namespace Service

/-- The service at the start. -/
def empty : Service := ⟨[], 0⟩

/-- Issues an id. -/
def issue (env : Surroundings) (s : Service) : String × Service :=
  (env.newId (s.issued + 1), { s with issued := s.issued + 1 })

/-- Stores a processor without any runs. -/
def put (s : Service) (p : Processor) : Service :=
  { s with stored := Members.put s.stored p.id ⟨p, 0, 0⟩ }

/-- The error for an id that is not stored. -/
def unknown (id : String) : ServiceError := .notFound s!"processor '{id}'"

/-- Stores a processor; one without an id gets a new one. -/
def create (env : Surroundings) (s : Service) (input : Option (Value Float)) :
    Except ServiceError Processor × Service :=
  let (id, s') := s.issue env
  let (input', s) := if needsId input then (withId id input, s') else (input, s)
  match Processor.ofInput env.now input' with
  | .ok p => (.ok p, s.put p)
  | .error e => (.error (.processor e), s)

/-- The processors, or those of a document type. -/
def list (s : Service) (documentType : Option String) : List ProcessorSummary :=
  (s.stored.filter fun m => match documentType with
    | some t => m.2.processor.documentType == t
    | none => true).map fun m => m.2.summary

/-- What is stored under an id. -/
def find (s : Service) (id : String) : Except ServiceError StoredProcessor :=
  match Members.get? s.stored id with
  | some stored => .ok stored
  | none => .error (unknown id)

/-- The processor of an id. -/
def get (s : Service) (id : String) : Except ServiceError Processor :=
  (s.find id).map (·.processor)

/-- Deletes a processor. -/
def delete (s : Service) (id : String) : Except ServiceError Unit × Service :=
  if Members.has s.stored id then (.ok (), { s with stored := Members.erase s.stored id })
  else (.error (unknown id), s)

/-- Counts a run of a processor. -/
def record (s : Service) (id : String) (stored : StoredProcessor) : Service :=
  { s with stored := Members.put s.stored id stored }

/-- Runs a stored processor on a layout. -/
def execute (env : Surroundings) (s : Service) (id : String) (l : Layout Float) :
    Except ServiceError Execution × Service :=
  match s.find id with
  | .error e => (.error e, s)
  | .ok stored =>
    let outcome := (PageExtract.execute env.settings l stored.processor).value
    (outcome.mapError .execution,
      s.record id (stored.count ExecutionError.isMissingAnchor outcome))

/-- Runs a stored processor on a document. -/
def executeDocument (env : Surroundings) (s : Service) (id : String) (bytes : List UInt8)
    (info : DocumentInfo) : Except ServiceError Execution × Service :=
  match s.find id with
  | .error e => (.error e, s)
  | .ok stored =>
    let outcome :=
      runDocument env.readPdf env.settings env.fingerprintBlocks bytes info stored.processor
    (outcome.mapError .ofRun, s.record id (stored.count RunError.isMissingAnchor outcome))

/-- Runs the processor of an id on a layout or, if no id is given, the one that matches best. -/
def route (env : Surroundings) (s : Service) (l : Layout Float) (id : Option String) :
    Except ServiceError Execution × Service :=
  match id with
  | some id => s.execute env id l
  | none =>
    match matchProcessor l (s.stored.map fun m => m.2.processor) with
    | some m => s.execute env m.processor.id l
    | none => (.error (.notFound "matching processor"), s)

end Service

/-- What a service can be asked to do. -/
inductive ServiceCommand where
  | create (input : Option (Value Float))
  | list (documentType : Option String)
  | get (id : String)
  | delete (id : String)
  | execute (id : String) (layout : Layout Float)
  | executeDocument (id : String) (bytes : List UInt8) (info : DocumentInfo)
  | route (layout : Layout Float) (id : Option String)

/-- What a service answers. -/
inductive ServiceAnswer where
  | processor (processor : Processor)
  | summaries (summaries : List ProcessorSummary)
  | execution (execution : Execution)
  | done

/-- Does what a command asks for. -/
def Service.step (env : Surroundings) (s : Service) :
    ServiceCommand → Except ServiceError ServiceAnswer × Service
  | .create input =>
    let (r, s') := s.create env input
    (r.map .processor, s')
  | .list documentType => (.ok (.summaries (s.list documentType)), s)
  | .get id => ((s.get id).map .processor, s)
  | .delete id =>
    let (r, s') := s.delete id
    (r.map fun _ => .done, s')
  | .execute id l =>
    let (r, s') := s.execute env id l
    (r.map .execution, s')
  | .executeDocument id bytes info =>
    let (r, s') := s.executeDocument env id bytes info
    (r.map .execution, s')
  | .route l id =>
    let (r, s') := s.route env l id
    (r.map .execution, s')

end PageExtract
