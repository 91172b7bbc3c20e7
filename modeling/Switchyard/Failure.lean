import Switchyard.Form.Field

/-!
# Failures and outcomes

A failure is what a caller is told when an invocation does not succeed: its kind and message,
the step that failed, and details. An outcome is either a value or a failure, together with
the outputs of the steps.

A failure is itself checked when it is made: its message has to be a text, and its
details must have text keys.
-/

namespace Switchyard

/-- A structured failure. -/
structure Failure where
  kind : FailureKind
  message : String
  stepName : Option String := none
  stepIndex : Option Int := none
  details : Entries := []
  deriving Inhabited

namespace Failure

/-- The number that stands for the kind of failure. -/
def status (failure : Failure) : Nat := failure.kind.status

/-- A failure from data of the right form. -/
def check (kind : FailureKind) (message stepName stepIndex : Value) (details : Entries) :
    Checked Failure :=
  Checked.join (Checked.join (Checked.join (Checked.join (.ok fun m n i d => ⟨kind, m, n, i, d⟩)
    (Checked.within (.field "message") (Form.text message)))
    (Checked.within (.field "step_name") (Form.optional Form.text stepName)))
    (Checked.within (.field "step_index") (Form.optional Form.integer stepIndex)))
    (Checked.within (.field "details") (Form.dictionary (.map details)))

/-- A failure of no particular step. -/
def ofFault (fault : Fault) : Checked Failure :=
  check fault.kind fault.message .null .null fault.details

/-- A failure of a step. -/
def atStep (kind : FailureKind) (message : Value) (name : String) (index : Nat)
    (details : Entries) : Checked Failure :=
  check kind message (.text name) (.int index) details

/-- The one failure that every denied caller is told. -/
def denial : Failure := { kind := .permissionDenied, message := "Permission denied" }

/-- The details that go to the caller. Those of a denial stay inside. -/
def publicDetails (failure : Failure) : Option Entries :=
  if failure.details.isEmpty ∨ failure.kind = .permissionDenied then none else some failure.details

end Failure

/-- The outputs of steps, in the order in which they ran. -/
abbrev Outputs := List (String × Value)

/-- How an invocation ended. -/
inductive Outcome
  | success (value : Value) (outputs : Outputs)
  | failed (failure : Failure) (outputs : Outputs)
  deriving Inhabited

namespace Outcome

def isOk : Outcome → Bool
  | .success .. => true
  | .failed .. => false

def value : Outcome → Value
  | .success value _ => value
  | .failed .. => .null

/-- The outputs of the steps, as far as they are told. -/
def outputs : Outcome → Outputs
  | .success _ outputs | .failed _ outputs => outputs

def failure? : Outcome → Option Failure
  | .success .. => none
  | .failed failure _ => some failure

/-- The word for an outcome in metrics: `ok` or the code of the failure. -/
def label : Outcome → String
  | .success .. => "ok"
  | .failed failure _ => failure.kind.code

end Outcome

/-- An outcome as it goes back to a caller. -/
structure Response where
  outcome : Outcome
  correlationId : Option String := none
  deriving Inhabited

end Switchyard
