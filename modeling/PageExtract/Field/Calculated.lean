/-
Calculating fields.

Calculations run in order on one tree, so that a formula can read what an earlier one wrote. A
formula that cannot be read, or whose value is not finite, writes nothing.

* `Calculation.run` : one calculation;
* `runCalculations` : all of them.
-/
import PageExtract.Processor.Basic
import PageExtract.Record.Calculation
import PageExtract.Trace

namespace PageExtract

/-- A replaced node as the context of an event. -/
def Replaced.context (r : Replaced) : LogContext := [logText "path" r.path, logText "kind" r.shape.text]

/-- Reports the nodes that a write replaced. `field` says what was written. -/
def reportReplaced (field : String) : List Replaced → Traced Unit
  | [] => pure ()
  | r :: rs => do
    let kind := r.shape.text
    degrade "write.shape_conflict" s!"{field} replaced the {kind} at '{r.path}'" r.context
    reportReplaced field rs

namespace Calculation

/-- How messages name a calculation. -/
def title (c : Calculation) : String := s!"Calculation '{c.fieldPath}'"

/-- Reports the remarks that were made on a formula. -/
def reportRemarks (c : Calculation) : List String → Traced Unit
  | [] => pure ()
  | remark :: remarks => do
    degrade "calc.value.coerced" s!"{c.title}: {remark}" []
    c.reportRemarks remarks

/-- Writes the value of a formula. -/
def store (c : Calculation) (tree : Record Float) (path : Path) (result : Float) :
    Traced (Record Float) := do
  let (tree', outcome) := Record.write tree path (.one (.num result))
  reportReplaced c.title outcome.replaced
  note .debug "calc.done" [logText "field_path" c.fieldPath, logNumber "result" result]
  return tree'

/-- Writes the value of a formula if it is finite; the field path has to be a path. -/
def run (c : Calculation) (tree : Record Float) : Traced (Except PathError (Record Float)) :=
  match Formula.parse c.formula with
  | .error e => do
    let problem := e.message
    degrade "calc.formula.invalid" s!"{c.title} has an invalid formula: {problem}"
      [logText "formula" c.formula, logCount "position" e.position]
    return .ok tree
  | .ok formula => do
    let (result, remarks) := formula.eval tree
    c.reportRemarks remarks
    if Numeric.isFinite result then
      match Path.parse c.fieldPath with
      | .ok path => return .ok (← c.store tree path result)
      | .error e => return .error e
    else
      degrade "calc.result.invalid" s!"{c.title} produced a non-finite result"
        [logText "formula" c.formula]
      return .ok tree

end Calculation

/-- Runs calculations in order; it ends at the first field path that is no path. -/
def runCalculations (tree : Record Float) :
    List Calculation → Traced (Except PathError (Record Float))
  | [] => pure (.ok tree)
  | c :: cs => do
    match ← c.run tree with
    | .ok tree' => runCalculations tree' cs
    | .error e => return .error e

end PageExtract
