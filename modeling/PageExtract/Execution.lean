/-
Running processors on layouts.

Anchors are looked for first, then regions; then fields are extracted and written into a tree of
records, further fields are calculated, and the result is validated. Nothing but a required anchor
that is missing stops a run. A run on a checked processor never meets a field path that is no path.

* `Execution` : the result of a run;
* `execute` : a run;
* `ExecutionError` : why a run has no result.
-/
import PageExtract.Field.Calculated
import PageExtract.Field.Extraction
import PageExtract.Rule.Report

namespace PageExtract

/-- Whether a result can be used as it is. -/
inductive ExecutionStatus where
  | ok
  | needsReview
deriving DecidableEq, Repr, Inhabited

/-- The name of a status. -/
def ExecutionStatus.name : ExecutionStatus → String
  | ok => "ok"
  | needsReview => "needs_review"

/-- The result of a run. -/
structure Execution where
  processorId : String
  data : Members (Value Float)
  validation : ValidationReport
  /-- The ids of the blocks at which anchors were found. -/
  anchors : Members String
  /-- How many blocks regions have. -/
  regions : Members Nat
  warnings : List String
  status : ExecutionStatus
deriving Inhabited

/-- Why a run has no result. -/
inductive ExecutionError where
  | missingAnchor (error : MissingAnchor)
  | invalidPath (error : PathError)
deriving DecidableEq, Repr, Inhabited

/-- The words of the error. -/
def ExecutionError.message : ExecutionError → String
  | missingAnchor e => e.message
  | invalidPath e => e.message

/-- How messages name the field of an extraction. -/
def Extraction.title (e : Extraction) : String := s!"Field '{e.fieldPath}'"

/-- Reports that a list did not fit the records that it was dealt out to. -/
def Extraction.reportMismatch (e : Extraction) : Option Mismatch → Traced Unit
  | none => pure ()
  | some m => do
    let values := countText m.values
    let records := countText m.records
    degrade "write.length_mismatch" s!"{e.title}: {values} values for {records} records"
      [logCount "sequence" m.records, logCount "values" m.values]

/-- Writes the value of a field, if there is one. -/
def Extraction.store (e : Extraction) (tree : Record Float) :
    Option (Extracted Float) → Traced (Except PathError (Record Float))
  | none => do
    degrade "extract.field.empty" s!"{e.title} extracted no value" [logText "source" e.source]
    return .ok tree
  | some value =>
    match Path.parse e.fieldPath with
    | .error error => pure (.error error)
    | .ok path => do
      let (tree', outcome) := Record.write tree path value
      e.reportMismatch outcome.mismatch
      reportReplaced e.title outcome.replaced
      return .ok tree'

/-- Extracts fields in order; it ends at the first field path that is no path. -/
def extractFields (input : ExtractionInput) (tree : Record Float) :
    List Extraction → Traced (Except PathError (Record Float))
  | [] => pure (.ok tree)
  | e :: es => do
    match ← e.store tree (← e.extract input) with
    | .ok tree' => extractFields input tree' es
    | .error error => return .error error

/-- The tree of a run: what is extracted, and then what is calculated. -/
def Processor.fill (p : Processor) (input : ExtractionInput) :
    Traced (Except PathError (Record Float)) := do
  match ← extractFields input [] p.extractions with
  | .ok tree => runCalculations tree p.calculations
  | .error error => return .error error

/-- The data of a run, once the anchors are found, with the regions. -/
def Processor.gather (p : Processor) (l : Layout Float) (s : Settings Float)
    (anchors : FoundAnchors Float) :
    Traced (Except PathError (FoundRegions Float × Members (Value Float))) := do
  let regions ← findRegions l anchors p.regions
  match ← p.fill ⟨l, p, anchors, regions, s⟩ with
  | .ok tree => return .ok (regions, tree.toMembers)
  | .error error => return .error error

/-- The events and warnings of a run up to the validation, with its data. -/
def Processor.collect (p : Processor) (l : Layout Float) (s : Settings Float) :
    Traced (Except ExecutionError
      (FoundAnchors Float × FoundRegions Float × Members (Value Float))) := do
  note .info "execute.start"
    [logCount "blocks" l.blocks.length, logCount "ops" p.extractions.length]
  match ← findAnchors l s p.anchors with
  | .error error => return .error (.missingAnchor error)
  | .ok anchors =>
    match ← p.gather l s anchors with
    | .error error => return .error (.invalidPath error)
    | .ok (regions, data) => return .ok (anchors, regions, data)

/-- The status of a run with a report and warnings. -/
def ExecutionStatus.of (report : ValidationReport) (warnings : List String) : ExecutionStatus :=
  if report.success && warnings.isEmpty then .ok else .needsReview

/-- Runs a processor on a layout. -/
def execute (s : Settings Float) (l : Layout Float) (p : Processor) :
    Traced (Except ExecutionError Execution) := do
  let collected := p.collect l s
  let warnings := collected.trace.warnings
  match ← collected with
  | .error error => return .error error
  | .ok (anchors, regions, data) => do
    let report ← validate data p.validations
    let status := ExecutionStatus.of report warnings
    note .info "execute.done"
      [logText "status" status.name, logCount "errors" report.errors.length,
        logCount "warnings" (warnings.length + report.warnings.length)]
    return .ok ⟨p.id, data, report, anchors.map fun m => (m.1, m.2.id),
      regions.map fun m => (m.1, m.2.length), warnings, status⟩

/-- The context of the events of a run. -/
def executionContext (l : Layout Float) (p : Processor) : LogContext :=
  [logText "processor_id" p.id, logText "document_id" (l.filename.getD l.fingerprint)]

/-- A result as a plain value. -/
def Execution.toValue (e : Execution) : Value Float :=
  .map [("processor_id", .str e.processorId), ("data", .map e.data),
    ("validation", e.validation.toValue),
    ("anchors", .map (e.anchors.map fun m => (m.1, .str m.2))),
    ("regions", .map (e.regions.map fun m => (m.1, .num (Float.ofNat m.2)))),
    ("warnings", textsValue e.warnings), ("status", .str e.status.name)]

end PageExtract
