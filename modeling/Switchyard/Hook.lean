import Switchyard.Fault
import Switchyard.Log

/-!
# Hooks

The host of the engine may listen to what happens: an audit hook is told the trail of each
invocation, a metrics hook is told samples. A hook that fails causes a log line and nothing else.

A hook that is present is called; whether it counts as true is not asked. Its failure is one that
can be told: it has a name and its error says something. Listeners of which that is not known are in
`Switchyard.Listener`.
-/

namespace Switchyard

/-- What an audit hook is told. A duration that nobody measured is missing. -/
inductive AuditCall
  /-- An invocation begins under an identifier. -/
  | identified (correlationId : String)
  | stepStarted (step : String) (index : Int) (metadata : Entries)
  | stepEnded (step : String) (outputs : Int) (seconds : Option Value) (metadata : Entries)
  | anomaly (message severity : String) (context : Entries)

/-- What a sample measures. -/
inductive SampleKind
  | timing
  | count
  | gauge
  deriving DecidableEq, Repr

/-- What a metrics hook is told: one sample of a metric. A value that nobody measured is missing. -/
structure Sample where
  kind : SampleKind
  name : String
  value : Option Value
  tags : Entries

/-- A call of a hook. -/
inductive HookCall
  | audit (call : AuditCall)
  | metric (sample : Sample)

namespace HookCall

/-- What the audit hook was told, if it was called. -/
def audit? : HookCall → Option AuditCall
  | .audit call => some call
  | .metric _ => none

/-- The sample that the metrics hook was told, if it was called. -/
def sample? : HookCall → Option Sample
  | .audit _ => none
  | .metric sample => some sample

end HookCall

/-- A hook for one kind of calls: for all calls before and the present one, whether it fails, and
the name under which the failure is logged. -/
structure Hook (κ : Type) where
  name : κ → String
  failure : (before : List κ) → κ → Option Raised

/-- The hooks of a host. -/
structure Hooks where
  audit : Option (Hook AuditCall) := none
  metrics : Option (Hook Sample) := none

namespace Raised

def className : Raised → String
  | .fault f => f.className
  | .rejected _ => "ValidationError"
  | .refused name _ | .broken name _ => name
  | .abandoned => "CancelledError"

def text : Raised → String
  | .fault f => f.message.shown .empty
  | .rejected issues => toString issues.length ++ " validation errors"
  | .refused _ text | .broken _ text => text
  | .abandoned => ""

/-- What an error says, or the name of its class if it says nothing. -/
def words (e : Raised) : String := if e.text = "" then e.className else e.text

/-- The error with which a coroutine ends that an error gets out of. A coroutine cannot end with a
`StopIteration`, since that is how its result is handed over; it ends with another error then. -/
def passedOn (e : Raised) : Raised :=
  if e.className = "StopIteration" then
    .broken "RuntimeError" "coroutine raised StopIteration" else e

end Raised

namespace Hook

/-- What an error says that was made from arguments: nothing, its only argument, or all
of them as a tuple. -/
def argumentsText : List Value → String
  | [] => ""
  | [v] => v.shown .empty
  | args => (Value.tuple args).displayed .empty

/-- The log line for a hook that failed, with what its error says. -/
def complaintLine (name words : String) : LogLine :=
  ⟨"observability.hooks", .warning, "Observability hook " ++ name ++ " failed: " ++ words⟩

/-- The log line for a hook that failed. -/
def complaint (name : String) (e : Raised) : LogLine := complaintLine name e.text

end Hook

end Switchyard
