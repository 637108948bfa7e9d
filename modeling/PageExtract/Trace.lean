/-
Computations that log events and collect warnings.

* `Trace` : the events and the warnings of a computation, in order;
* `Traced α` : a value and the trace that led to it;
* `note`, `degrade` : an event alone, and a warning that is also an event.
-/
import PageExtract.Log.Basic

namespace PageExtract

/-- What a computation has reported. -/
structure Trace where
  events : List LogEvent
  warnings : List String
deriving Inhabited

/-- Two traces, one after the other. -/
def Trace.append (s t : Trace) : Trace := ⟨s.events ++ t.events, s.warnings ++ t.warnings⟩

instance : Append Trace := ⟨Trace.append⟩

/-- A value and what was reported on the way to it. -/
structure Traced (α : Type) where
  value : α
  trace : Trace
deriving Inhabited

instance : Monad Traced where
  pure a := ⟨a, ⟨[], []⟩⟩
  bind x f :=
    let y := f x.value
    ⟨y.value, x.trace ++ y.trace⟩

/-- Reports an event. -/
def note (level : LogLevel) (name : String) (context : LogContext) : Traced Unit :=
  ⟨(), ⟨[⟨level, name, context⟩], []⟩⟩

/-- Reports a problem that does not stop the computation: as a warning, and as an event whose
context ends with the warning. -/
def degrade (name message : String) (context : LogContext) : Traced Unit :=
  ⟨(), ⟨[⟨.warn, name, context ++ [logText "message" message]⟩], [message]⟩⟩

namespace Trace

variable {α β : Type}

@[simp] theorem events_append (s t : Trace) : (s ++ t).events = s.events ++ t.events := rfl

@[simp] theorem warnings_append (s t : Trace) : (s ++ t).warnings = s.warnings ++ t.warnings := rfl

@[simp] theorem value_pure (a : α) : (pure a : Traced α).value = a := rfl

@[simp] theorem events_pure (a : α) : (pure a : Traced α).trace.events = [] := rfl

@[simp] theorem warnings_pure (a : α) : (pure a : Traced α).trace.warnings = [] := rfl

@[simp] theorem value_bind (x : Traced α) (f : α → Traced β) :
    (x >>= f).value = (f x.value).value := rfl

@[simp] theorem events_bind (x : Traced α) (f : α → Traced β) :
    (x >>= f).trace.events = x.trace.events ++ (f x.value).trace.events := rfl

@[simp] theorem warnings_bind (x : Traced α) (f : α → Traced β) :
    (x >>= f).trace.warnings = x.trace.warnings ++ (f x.value).trace.warnings := rfl

end Trace

end PageExtract
