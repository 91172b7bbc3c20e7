import Switchyard.Binding.Basic
import Switchyard.Expression.Evaluate

/-!
# Resolving bindings

To resolve a binding is to evaluate its expressions against a context. Literals are laid out afresh
each time, so that whoever receives the result may change it without changing the configuration;
what an expression yields is the value itself.
-/

namespace Switchyard.Binding

open Expression (EvalProblem)

mutual

/-- The value of a binding in a context, and the store with the containers that it takes. -/
def resolve (context : Value) : Binding → Store → Except EvalProblem (Value × Store)
  | .literal value, σ => .ok (σ.layOut value)
  | .expression e, σ => do
    let v ← e.evaluate σ context
    pure (v, σ)
  | .list items, σ => do
    let (values, σ) ← resolveItems context items σ
    pure (σ.alloc (.list values))
  | .map entries, σ => do
    let (pairs, σ) ← resolveEntries context entries σ
    -- Keys that became the same text are one key.
    pure (σ.alloc (.map (.ofPairs pairs)))

/-- Resolves the items of a list from left to right. -/
def resolveItems (context : Value) : List Binding → Store → Except EvalProblem (List Value × Store)
  | [], σ => .ok ([], σ)
  | b :: rest, σ => do
    let (v, σ) ← resolve context b σ
    let (vs, σ) ← resolveItems context rest σ
    pure (v :: vs, σ)

def resolveEntries (context : Value) :
    List (String × Binding) → Store → Except EvalProblem (List (Scalar × Value) × Store)
  | [], σ => .ok ([], σ)
  | (k, b) :: rest, σ => do
    let (v, σ) ← resolve context b σ
    let (vs, σ) ← resolveEntries context rest σ
    pure ((.text k, v) :: vs, σ)

end

/-- The value of a step's configuration in a context. -/
def resolveRecord (context : Value) (entries : List (String × Binding)) (σ : Store) :
    Except EvalProblem (Value × Store) :=
  resolve context (.map entries) σ

end Switchyard.Binding
