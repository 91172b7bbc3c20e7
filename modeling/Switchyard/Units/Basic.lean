import Switchyard.Activity
import Switchyard.Log
import Switchyard.Scope

/-!
# Units

A unit does the work of a step. It is called with the resolved configuration of the step
and with the invocation that calls it, and it may suspend itself before it answers with a
value or raises an error.

A unit acts on its surroundings: it reads and changes shared containers, writes log lines, takes
notes of what it was called with, calls off an invocation, and withdraws the routes of the
dispatcher that it serves. What it sees of its invocation it can only read.
-/

namespace Switchyard

/-- What units can act on. -/
structure Surroundings where
  store : Store := .empty
  /-- For each invocation that can be called off, whether it has been. -/
  signals : Array Bool := #[]
  log : List LogLine := []
  notes : List Value := []
  /-- Whether a unit has withdrawn the routes. -/
  withdrawn : Bool := false
  deriving Inhabited

namespace Surroundings

def write (s : Surroundings) (line : LogLine) : Surroundings := { s with log := s.log ++ [line] }

def remark (s : Surroundings) (note : Value) : Surroundings := { s with notes := s.notes ++ [note] }

/-- Whether a signal was given; no signal is never given. -/
def isGiven (s : Surroundings) (signal : Option Nat) : Bool :=
  match signal with
  | some n => s.signals[n]?.getD false
  | none => false

def give (s : Surroundings) (signal : Option Nat) : Surroundings :=
  match signal with
  | some n => { s with signals := s.signals.setIfInBounds n true }
  | none => s

def newSignal (s : Surroundings) (given : Bool) : Nat × Surroundings :=
  (s.signals.size, { s with signals := s.signals.push given })

def layOut (s : Surroundings) (v : Value) : Value × Surroundings :=
  let (v, store) := s.store.layOut v
  (v, { s with store })

end Surroundings

/-- Who calls a unit: an invocation with the signal that calls it off, or somebody who passes
other data instead. -/
inductive Caller
  | invocation (scope : Scope) (signal : Option Nat)
  | other (data : Value)

abbrev Call := Surroundings → Activity Surroundings (Except Raised Value)

namespace Call

def answer (v : Value) : Call := fun s => .done s (.ok v)

def raise (e : Raised) : Call := fun s => .done s (.error e)

def settle (r : Except Raised Value) : Call := fun s => .done s r

end Call

/-- A unit. An object that cannot be called has no behaviour. -/
structure StepUnit where
  name : String
  typeName : String
  behaviour : Option (Value → Caller → Call)
  /-- How the unit is displayed, if it says so. -/
  displayed : Option String := none

end Switchyard
