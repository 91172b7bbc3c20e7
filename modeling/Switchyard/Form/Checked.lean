import Switchyard.Fault

/-!
# Checking the form of data

Data from outside is checked against the form it should have. A check either yields what the data
stands for or reports everything that is wrong, each issue with the place where it is. Checks of the
parts of a whole are put together in order, and the issues of all of them are kept.
-/

namespace Switchyard

/-- What data stands for, or all that is wrong with it. -/
abbrev Checked (α : Type) := Except (List Issue) α

namespace Checked

variable {α β : Type}

def issue (rule : String) : Checked α := .error [⟨rule, []⟩]

/-- The check of a part, told from the whole. -/
def within (part : LocationPart) : Checked α → Checked α
  | .ok x => .ok x
  | .error issues => .error (issues.map fun i => { i with location := part :: i.location })

/-- The check of one more part. -/
def join (f : Checked (α → β)) (x : Checked α) : Checked β :=
  match f, x with
  | .ok f, .ok x => .ok (f x)
  | .ok _, .error issues => .error issues
  | .error issues, .ok _ => .error issues
  | .error issues, .error more => .error (issues ++ more)

/-- What the parts of a whole are put together with, before any part has been checked. -/
def start (f : α) : Checked α := .ok f

/-- Checks each of some parts, which are told apart by their places. -/
def each (check : α → Checked β) (place : Nat) : List α → Checked (List β)
  | [] => .ok []
  | x :: rest => (Checked.join ((within (.place place) (check x)).map fun y ys => y :: ys)
      (each check (place + 1) rest))

def raise : Checked α → Except Raised α
  | .ok x => .ok x
  | .error issues => .error (.rejected issues)

end Checked

/-- How a key of a map is told as a part of a place. -/
def LocationPart.ofKey (key : Scalar) : LocationPart :=
  match key with
  | .text s => .field s
  | .bool b => .place (if b then 1 else 0)
  | .int n =>
    if -(Decimal.twoTo 63) ≤ n ∧ n < Decimal.twoTo 63 then .place n else .field (toString n)
  | k => .field k.displayed

end Switchyard
