/-
Log events.

An event has a level, a name and a context. The context of an event is added to the context of the
log that it is written to; a member that is set again keeps its place.

* `LogLevel`, `LogEvent`, `LogContext` : events and what they carry;
* `LogThreshold` : which events pass;
* `LogEvent.entry` : an event with the context of its log.
-/
import PageExtract.Value.Basic

namespace PageExtract

/-- The levels, from the least to the most important. -/
inductive LogLevel where
  | trace
  | debug
  | info
  | warn
  | error
deriving DecidableEq, Repr, Inhabited

/-- The name of a level. -/
def LogLevel.name : LogLevel → String
  | trace => "trace"
  | debug => "debug"
  | info => "info"
  | warn => "warn"
  | error => "error"

/-- The levels in order. -/
def LogLevel.every : List LogLevel := [.trace, .debug, .info, .warn, .error]

/-- The level of a name. -/
def LogLevel.ofName? (s : String) : Option LogLevel := every.find? fun l => l.name == s

/-- How important a level is. -/
def LogLevel.rank : LogLevel → Nat
  | trace => 0
  | debug => 1
  | info => 2
  | warn => 3
  | error => 4

/-- Which levels pass. -/
inductive LogThreshold where
  | everything
  | atLeast (level : LogLevel)
  | silent
deriving DecidableEq, Repr, Inhabited

/-- Whether a level passes. -/
def LogThreshold.passes (t : LogThreshold) (l : LogLevel) : Bool :=
  match t with
  | everything => true
  | atLeast level => level.rank ≤ l.rank
  | silent => false

/-- The threshold of a name. -/
def LogThreshold.ofName? (s : String) : Option LogThreshold :=
  if s == "silent" then some silent else (LogLevel.ofName? s).map atLeast

/-- The context of an event or of a log. A member without a value is not written. -/
abbrev LogContext := Members (Option (Value Float))

/-- The members of a context that have a value. -/
def LogContext.members (c : LogContext) : Members (Value Float) :=
  c.filterMap fun m => m.2.map fun v => (m.1, v)

/-- An event. -/
structure LogEvent where
  level : LogLevel
  name : String
  context : LogContext
deriving Inhabited

/-- A member of a context that is a text. -/
def logText (key value : String) : String × Option (Value Float) := (key, some (.str value))

/-- A member of a context that is a number. -/
def logNumber (key : String) (value : Float) : String × Option (Value Float) :=
  (key, some (.num value))

/-- A member of a context that is a count. -/
def logCount (key : String) (value : Nat) : String × Option (Value Float) :=
  logNumber key (Float.ofNat value)

/-- A member of a context that is a truth value. -/
def logFlag (key : String) (value : Bool) : String × Option (Value Float) :=
  (key, some (.bool value))

/-- An event as it is written to a log with a context. Level and name come first; a member of a
context that has the name of an earlier one takes its place. -/
def LogEvent.entry (base : LogContext) (e : LogEvent) : LogContext :=
  let start : LogContext := [logText "level" e.level.name, logText "msg" e.name]
  Members.merge (Members.merge start base) e.context

end PageExtract
