import Switchyard.Hook
import Switchyard.Units.Basic

/-!
# What invocations share

All invocations act on one world: the surroundings of the units, the trail of hook calls, and
the log lines that failing hooks cause. Each hook call is kept with the number of the
invocation that made it.
-/

namespace Switchyard

/-- What invocations act on. -/
structure World where
  surroundings : Surroundings := {}
  trail : List (Nat × HookCall) := []
  complaints : List LogLine := []
  deriving Inhabited

namespace World

def store (w : World) : Store := w.surroundings.store

def withStore (w : World) (store : Store) : World :=
  { w with surroundings := { w.surroundings with store } }

def audits (w : World) : List AuditCall := w.trail.filterMap (·.2.audit?)

/-- The samples that the metrics hook was told so far. -/
def samples (w : World) : List Sample := w.trail.filterMap (·.2.sample?)

/-- The world after a hook was called and maybe failed. -/
def called (w : World) (invocation : Nat) (call : HookCall) (failure : Option LogLine) : World :=
  { w with trail := w.trail ++ [(invocation, call)], complaints := w.complaints ++ failure.toList }

def audit (w : World) (hooks : Hooks) (invocation : Nat) (call : AuditCall) : World :=
  match hooks.audit with
  | none => w
  | some hook =>
    w.called invocation (.audit call)
      ((hook.failure w.audits call).map (Hook.complaint (hook.name call)))

def measure (w : World) (hooks : Hooks) (invocation : Nat) (sample : Sample) : World :=
  match hooks.metrics with
  | none => w
  | some hook =>
    w.called invocation (.metric sample)
      ((hook.failure w.samples sample).map (Hook.complaint (hook.name sample)))

/-- Makes a call of a unit in the world. -/
def act (call : Call) : World → Activity World (Except Raised Value) := fun w =>
  (call w.surroundings).within (·.surroundings) (fun w surroundings => { w with surroundings }) w

end World

end Switchyard
