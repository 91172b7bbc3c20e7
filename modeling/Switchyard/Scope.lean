import Switchyard.Claims
import Switchyard.Outputs

/-!
# What a step can see

Each invocation has a scope: its input, the claims of its caller, and the outputs of the steps that
ran. Expressions see it as a map with these roots:

- `input`, the input as it came;
- `steps`, a view that holds for each step that ran a view with its `output`;
- each step that ran, under its own name.

The view of the steps stays the same container while it grows, so whoever keeps it
sees later steps as well.
-/

namespace Switchyard

/-- The state of one invocation. -/
structure Scope where
  input : Value
  claims : Option Claims
  correlationId : Option String
  outputs : Outputs
  /-- The address of the view of the steps. -/
  steps : Nat
  /-- The roots that expressions see. -/
  roots : Entries
  deriving Inhabited

namespace Scope

def inputRoot : String := "input"

def stepsRoot : String := "steps"

/-- The scope of an invocation before its first step. -/
def start (input : Value) (claims : Option Claims) (correlationId : Option String) (σ : Store) :
    Scope × Store :=
  let address := σ.cells.size
  let (view, σ) := σ.alloc (.view [])
  ({ input, claims, correlationId
     outputs := []
     steps := address
     roots := [(.text inputRoot, input), (.text stepsRoot, view)] }, σ)

/-- The data that expressions are evaluated against. -/
def context (scope : Scope) : Value := .map scope.roots

/-- Records the output of a step and shows it to later steps. -/
def record (scope : Scope) (name : String) (value : Value) (σ : Store) :
    Except Raised (Scope × Store) := do
  let outputs ← scope.outputs.record name value
  let (entry, σ) := σ.alloc (.view [(.text "output", value)])
  let seen := (σ.entries? (.shared scope.steps)).getD []
  let σ := σ.set scope.steps (.view (Entries.put seen (.text name) entry))
  pure ({ scope with outputs, roots := scope.roots.put (.text name) value }, σ)

def subject (scope : Scope) : Option String := scope.claims.bind (·.subject)

def displayed (scope : Scope) : String :=
  "InvocationContext(correlation_id=" ++ (match scope.correlationId with
    | some id => Text.quoted id
    | none => "None") ++ ", outputs=" ++ scope.outputs.displayedNames ++ ")"

end Scope

end Switchyard
