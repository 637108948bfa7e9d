/-
Reports of rules.

Every rule is evaluated, and one that fails does not stop the others. Only rules of severity
`error` make the report unsuccessful.

* `ValidationReport` : the failures of some rules;
* `Validation.failure?` : how a rule fails;
* `validate` : the report of rules on data.
-/
import PageExtract.Processor.Basic
import PageExtract.Rule.Eval
import PageExtract.Rule.Parser
import PageExtract.Trace

namespace PageExtract

/-- The failures of some rules. -/
structure ValidationReport where
  errors : List String
  warnings : List String
deriving DecidableEq, Repr, Inhabited

/-- Whether no rule of severity `error` failed. -/
def ValidationReport.success (r : ValidationReport) : Bool := r.errors.isEmpty

/-- How a rule fails on some data, if it does. -/
def Validation.failure? (v : Validation) (data : Members (Value Float)) : Option String :=
  match Rule.parse v.predicate with
  | .error e =>
    let problem := e.message
    some s!"Validation '{v.name}' error: {problem}"
  | .ok rule =>
    match rule.holds data with
    | .ok true => none
    | .ok false => some s!"Validation failed: {v.name}"
    | .error (.missingField label) =>
      some s!"Validation '{v.name}' failed: Missing field {label}"
    | .error e =>
      let problem := e.message
      some s!"Validation '{v.name}' error: {problem}"

/-- A report with one more failure. -/
def ValidationReport.add (r : ValidationReport) (severity : Severity) (failure : String) :
    ValidationReport :=
  match severity with
  | .error => ⟨r.errors ++ [failure], r.warnings⟩
  | .warning => ⟨r.errors, r.warnings ++ [failure]⟩

/-- The report of rules on data, added to the report of others. -/
def validateFrom (data : Members (Value Float)) (report : ValidationReport) :
    List Validation → Traced ValidationReport
  | [] => pure report
  | v :: vs =>
    match v.failure? data with
    | none => validateFrom data report vs
    | some failure => do
      note .debug "validation.rule.failed"
        [logText "rule" v.name, logText "severity" v.severity.name, logText "message" failure]
      validateFrom data (report.add v.severity failure) vs

/-- The report of rules on data. -/
def validate (data : Members (Value Float)) (validations : List Validation) :
    Traced ValidationReport := validateFrom data ⟨[], []⟩ validations

/-- A report as a plain value. -/
def ValidationReport.toValue (r : ValidationReport) : Value Float :=
  .map [("success", .bool r.success), ("errors", textsValue r.errors),
    ("warnings", textsValue r.warnings)]

end PageExtract
