import Switchyard.Claims
import Switchyard.Failure
import Switchyard.Log
import Switchyard.Text.Sorted
import Switchyard.Value.Snapshot

/-!
# Outcomes as data

How errors, failures, responses, claims and log lines are told to a host that takes data.
-/

namespace Switchyard

def LocationPart.toValue : LocationPart → Value
  | .field name => .text name
  | .place n => .int n

def Issue.toValue (issue : Issue) : Value :=
  .record [("type", .text issue.rule), ("loc", .list (issue.location.map (·.toValue)))]

/-- What a fault says, with its code and status. -/
def Fault.toEntries (σ : Store) (fault : Fault) : List (String × Value) :=
  [("error", .text fault.className), ("message", fault.message.snapshot σ),
    ("code", .text fault.kind.code), ("status", .int fault.kind.status),
      ("details", (Value.map fault.details).snapshot σ)]

/-- What an error says: everything about faults, the places of misshapen data, the text of an error
raised on purpose, and only the class of any other. -/
def Raised.toEntries (σ : Store) : Raised → List (String × Value)
  | .fault f => f.toEntries σ
  | .rejected issues =>
    [("error", .text "ValidationError"), ("errors", .list (issues.map (·.toValue)))]
  | .refused className text => [("error", .text className), ("message", .text text)]
  | .broken className _ => [("error", .text className)]
  | .abandoned => [("error", .text "CancelledError"), ("message", .text "")]

def Raised.toValue (e : Raised) : Value := .record (e.toEntries .empty)

def Raised.orValue (r : Except Raised Value) : Value :=
  match r with
  | .ok v => v
  | .error e => e.toValue

def Failure.toValue (σ : Store) (f : Failure) : Value :=
  let step := match f.stepName with
    | some name => [("step", .text name), ("step_index", Value.orNull .int f.stepIndex)]
    | none => []
  let details := match f.publicDetails with
    | some details => [("details", (Value.map details).snapshot σ)]
    | none => []
  .record ([("type", .text f.kind.title), ("code", .text f.kind.code), ("status", .int f.status),
    ("message", .text f.message)] ++ step ++ details)

def Outputs.toValue (σ : Store) (outputs : Outputs) : Value :=
  .list (List.map (fun (name, v) => .list [.text name, Value.snapshot σ v]) outputs)

def Response.toValue (σ : Store) (r : Response) : Value :=
  let failure := r.outcome.failure?
  .record [("ok", .bool r.outcome.isOk), ("value", r.outcome.value.snapshot σ),
    ("kind", Value.orNull (fun f => .text f.kind.code) failure),
    ("correlation_id", Value.orNull .text r.correlationId),
      ("outputs", r.outcome.outputs.toValue σ),
    ("failure", Value.orNull (Failure.toValue σ) failure)]

def Response.orValue (σ : Store) : Except Raised Response → Value
  | .ok r => r.toValue σ
  | .error e => .record (e.toEntries σ)

/-- Claims as data; permissions and roles are in order. -/
def Claims.toValue (c : Claims) : Value :=
  .record [("subject", Value.orNull .text c.subject),
    ("permissions", .texts (Text.sortedSet c.permissions)),
      ("roles", .texts (Text.sortedSet c.roles)), ("attributes", .map c.attributes),
    ("authenticated", .bool c.hasSubject)]

def LogLine.toValue (l : LogLine) : Value := .texts [l.part, l.level.label, l.message]

end Switchyard
