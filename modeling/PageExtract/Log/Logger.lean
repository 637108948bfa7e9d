/-
Logs as lines of text.

* `Logger` : a threshold, a format and a context;
* `Logger.ofOptions` : the options that are given, else those of the environment;
* `Logger.child` : the same log with more context;
* `Logger.line?` : the line that is written for an event, if it passes.
-/
import PageExtract.Log.Basic
import PageExtract.Text.Case
import PageExtract.Value.Json

namespace PageExtract

/-- How lines are written: as JSON, or for readers. -/
inductive LogFormat where
  | json
  | pretty
deriving DecidableEq, Repr, Inhabited

/-- The format of a name. -/
def LogFormat.ofName (s : String) : LogFormat := if s == "json" then .json else .pretty

mutual

/-- A value within a line: a text as it is, the items of a list with commas between them. -/
def inlineText : Value Float → String
  | .null => "null"
  | .bool b => if b then "true" else "false"
  | .num x => Numeric.text x
  | .str s => s
  | .list vs => ",".intercalate (inlineTexts vs)
  | .map _ => "[object Object]"

/-- The items of a list within a line; an item that is null is left empty. -/
def inlineTexts : List (Value Float) → List String
  | [] => []
  | .null :: vs => "" :: inlineTexts vs
  | v :: vs => inlineText v :: inlineTexts vs

end

/-- Whether a value is shown as a service: zero, the empty text, `false` and null are not. -/
def namesService : Value Float → Bool
  | .null => false
  | .bool b => b
  | .num x => x < 0 || 0 < x
  | .str s => !s.isEmpty
  | _ => true

/-- A log. -/
structure Logger where
  threshold : LogThreshold
  format : LogFormat
  context : LogContext
deriving Inhabited

namespace Logger

/-- A log for a service. A level that is given and has no meaning lets everything pass; one from
the environment that has none counts as `info`. -/
def ofOptions (service level format envLevel envFormat : Option String) : Logger where
  threshold :=
    match level with
    | some l => (LogThreshold.ofName? l).getD .everything
    | none => (envLevel.bind LogThreshold.ofName?).getD (.atLeast .info)
  format :=
    match format with
    | some f => .ofName f
    | none => .ofName (envFormat.getD "")
  context := [("service", service.map .str)]

/-- The log of a service with the usual options. -/
def ofService (service : String) : Logger := ofOptions (some service) none none none none

/-- The same log with more context. -/
def child (l : Logger) (more : LogContext) : Logger :=
  { l with context := Members.merge l.context more }

/-- The service of a log, with a space before it. -/
def serviceText (l : Logger) : String :=
  match Members.get? l.context "service" with
  | some (some v) => if namesService v then " " ++ inlineText v else ""
  | _ => ""

/-- A line for readers. -/
def prettyLine (now : String) (l : Logger) (e : LogEvent) : String :=
  let context := Members.merge (Members.erase l.context "service") e.context
  let shown :=
    if context.isEmpty then "" else " " ++ (Value.map (LogContext.members context)).compact
  s!"[{now}] {Text.upper e.level.name}{l.serviceText} - {e.name}{shown}"

/-- A line of JSON. -/
def jsonLine (now : String) (l : Logger) (e : LogEvent) : String :=
  let start : LogContext :=
    [logText "ts" now, logText "level" e.level.name, logText "msg" e.name]
  (Value.map (LogContext.members (Members.merge (Members.merge start l.context) e.context))).compact

/-- The line that is written for an event, if it passes. -/
def line? (now : String) (l : Logger) (e : LogEvent) : Option String :=
  if l.threshold.passes e.level then
    some (match l.format with
      | .json => jsonLine now l e
      | .pretty => prettyLine now l e)
  else none

end Logger

end PageExtract
