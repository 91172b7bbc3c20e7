import Switchyard.Failure

/-!
# Outputs of steps

The outputs of the steps that ran, each recorded once under the name of its step. They are found by
name and by the place at which they were recorded.
-/

namespace Switchyard.Outputs

def find? (outputs : Outputs) (name : String) : Option Value :=
  (List.find? (·.1 == name) outputs).map (·.2)

def contains (outputs : Outputs) (name : String) : Bool := List.any outputs (·.1 == name)

/-- The names of the steps, in the order of their outputs. -/
def names (outputs : Outputs) : List String := List.map (·.1) outputs

/-- Appends the output of a step that has none yet. -/
def record (outputs : Outputs) (name : String) (value : Value) : Except Raised Outputs :=
  if outputs.contains name then
    .error (.refused "ValueError" ("Output for step '" ++ name ++ "' is already recorded"))
  else .ok (List.append outputs [(name, value)])

/-- The output of a step that must have one. -/
def get (outputs : Outputs) (name : String) : Except Raised Value :=
  match outputs.find? name with
  | some v => .ok v
  | none => .error (.broken "KeyError" (Text.quoted name))

/-- The output recorded at a place; a negative place counts from the end. -/
def nth (outputs : Outputs) (place : Int) : Except Raised (String × Value) :=
  let index := if place < 0 then place + List.length outputs else place
  match if index < 0 then none else outputs[index.toNat]? with
  | some entry => .ok entry
  | none => .error (.broken "IndexError" "list index out of range")

def last (outputs : Outputs) : Option (String × Value) := List.getLast? outputs

/-- The names between brackets. -/
def displayedNames (outputs : Outputs) : String :=
  Value.bracketed "[" "]" (outputs.names.map Text.quoted)

def displayed (outputs : Outputs) : String := "StepOutputs(" ++ outputs.displayedNames ++ ")"

end Switchyard.Outputs
