import Switchyard.Dispatcher

/-!
# Listeners

Hooks as a host may have them. When a hook fails, a log line says under which name and with which
words. Both are asked of objects of the host, and asking may raise in turn. Nobody catches that: the
error gets out of the call of the hook and into what made the call.

The hooks of `Switchyard.Hook` are the listeners of which both can always be had.
-/

namespace Switchyard

/-! ## §1 Listeners -/

/-- A listener for one kind of calls: for all calls before and the present one the name under which
its failure is logged, and whether it fails, with what its error says. Asking for the name or for
the words may raise. -/
structure Listener (κ : Type) where
  name : (before : List κ) → κ → Except Raised String
  failure : (before : List κ) → κ → Option (Except Raised String)

/-- What a call leaves, unless an error gets out of it: the log line of its
failure, if it failed. -/
def Listener.answer {κ : Type} (listener : Listener κ) (before : List κ) (call : κ) :
    Except Raised (Option LogLine) :=
  match listener.failure before call with
  | none => .ok none
  | some words => do
    -- The name is asked for before the words.
    let name ← listener.name before call
    let words ← words
    .ok (some (Hook.complaintLine name words))

/-- The listeners of a host. -/
structure Listeners where
  audit : Option (Listener AuditCall) := none
  metrics : Option (Listener Sample) := none

/-- A hook as a listener: its name and its words can always be had. -/
def Hook.listener {κ : Type} (hook : Hook κ) : Listener κ where
  name _ call := .ok (hook.name call)
  failure before call := (hook.failure before call).map fun e => .ok e.text

def Hooks.listeners (hooks : Hooks) : Listeners where
  audit := hooks.audit.map Hook.listener
  metrics := hooks.metrics.map Hook.listener

namespace Listeners

/-- What a call leaves after the calls on the trail, if somebody listens to it. -/
def answer? (listeners : Listeners) (trail : List (Nat × HookCall)) :
    HookCall → Option (Except Raised (Option LogLine))
  | .audit call => listeners.audit.map (·.answer (trail.filterMap (·.2.audit?)) call)
  | .metric sample => listeners.metrics.map (·.answer (trail.filterMap (·.2.sample?)) sample)

/-- Tells the listeners a call. If an error gets out of that, it comes along. -/
def tell (listeners : Listeners) (number : Nat) (call : HookCall) (w : World) :
    World × Option Raised :=
  match listeners.answer? w.trail call with
  | none => (w, none)
  | some (.ok complaint) => (w.called number call complaint, none)
  | some (.error e) => (w.called number call none, some e)

/-- Tells the listeners some calls and goes on. An error that gets out ends it at once. -/
def telling {α : Type} (listeners : Listeners) (number : Nat) (calls : List HookCall)
    (escape : Raised → α) (next : World → Activity World α) (w : World) : Activity World α :=
  match calls with
  | [] => next w
  | call :: rest => match listeners.tell number call w with
    | (w, none) => listeners.telling number rest escape next w
    | (w, some e) => .done w (escape e)

end Listeners

/-! ## §2 What listeners are told -/

namespace Step

/-- What is told about a step that starts. -/
def startCall (step : Step) (index : Nat) : AuditCall :=
  .stepStarted step.name index [(.text "uses", .text step.uses)]

/-- What is told about a step that is completed, with the number of outputs then. -/
def endCall (step : Step) (outputs : Nat) : AuditCall := .stepEnded step.name outputs none []

/-- The sample of how long a step took. -/
def durationSample (step : Step) : Sample :=
  ⟨.timing, "step_duration_seconds", none,
    [(.text "step", .text step.name), (.text "unit", .text step.uses)]⟩

/-- What is told about a step that fails. -/
def anomalyCall (step : Step) (index : Nat) (failure : Failure) : AuditCall :=
  .anomaly ("Step '" ++ step.name ++ "' failed: " ++ failure.message) "WARNING"
    [(.text "step", .text step.name), (.text "step_index", .int index),
      (.text "kind", .text failure.kind.code)]

/-- The sample of a step that fails. -/
def failureSample (step : Step) (failure : Failure) : Sample :=
  ⟨.count, "step_failures_total", some (.int 1),
    [(.text "step", .text step.name), (.text "kind", .text failure.kind.code)]⟩

end Step

namespace Dispatcher

/-- What is told about a caller who is denied: the reason of the gate. -/
def denialCall (route : Route) (decision : Decision) : AuditCall :=
  .anomaly "Permission denied" "WARNING"
    [(.text "route", .text route.text), (.text "reason", .text decision.reason)]

/-- The sample of a caller who is denied. -/
def denialSample (route : Route) : Sample :=
  ⟨.count, "denials_total", some (.int 1), [(.text "route", .text route.text)]⟩

/-- What is told about a limit that passes. -/
def latenessCall (route : Route) (limit : Value) : AuditCall :=
  .anomaly "Invocation timed out" "WARNING"
    [(.text "route", .text route.text), (.text "timeout_seconds", limit)]

/-- The tags of an invocation that ends. -/
def endTags (route : Route) (outcome : Outcome) : Entries :=
  [(.text "route", .text route.text), (.text "outcome", .text outcome.label)]

/-- The samples of an invocation that ends. -/
def endSamples (route : Route) (outcome : Outcome) : List Sample :=
  [⟨.timing, "invocation_duration_seconds", none, endTags route outcome⟩,
   ⟨.count, "invocations_total", some (.int 1), endTags route outcome⟩]

/-- The calls for an invocation that ends. -/
def endCalls (route : Route) (outcome : Outcome) : List HookCall :=
  (endSamples route outcome).map .metric

end Dispatcher

end Switchyard
