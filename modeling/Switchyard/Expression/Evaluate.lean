import Switchyard.Decimal.Reader
import Switchyard.Expression.Tree
import Switchyard.Fault

/-!
# Evaluation

A path walks from the context into maps by name and into lists by place. A sum joins texts and
numbers: if either operand is a text the result is a text, else both have to be numbers.
Evaluation only reads the store.
-/

namespace Switchyard.Expression

/-- Why a segment of a path leads nowhere. -/
inductive MissReason
  | absent
  | needsIndex
  | outOfRange
  | notContainer
  deriving DecidableEq, Repr

/-- The words for a reason; the plain absence of a field has none. -/
def MissReason.text : MissReason → String
  | .absent => ""
  | .needsIndex => "list requires an index"
  | .outOfRange => "index out of range"
  | .notContainer => "parent is not a container"

/-- Why an evaluation fails. -/
inductive EvalProblem
  /-- The walked part of a path, the failing segment last. -/
  | missing (walked : List Segment) (segment : Segment) (reason : MissReason)
  | mismatch (left right : String)
  /-- A negative place before the front of a list. -/
  | beforeFront
  /-- An integer with no double near it, added to a double. -/
  | tooLarge
  /-- A tree that is no expression. -/
  | alien (typeName : String)
  deriving Inhabited

/-- How an evaluation error is raised. -/
def EvalProblem.raised : EvalProblem → Raised
  | .missing walked segment reason =>
    .fault (.missing (dotted walked) (.text segment.key) reason.text)
  | .mismatch left right => .fault (.mismatch "+" left right)
  | .beforeFront => .broken "IndexError" "list index out of range"
  | .tooLarge => .broken "OverflowError" "int too large to convert to float"
  | .alien typeName => .refused "TypeError" ("Unknown expression node: " ++ typeName)

/-- Follows one segment from a value; `walked` ends with the segment. -/
def follow (σ : Store) (walked : List Segment) (segment : Segment) (current : Value) :
    Except EvalProblem Value :=
  match σ.shape current with
  | .mapping entries =>
    match entries.field? segment.key with
    | some v => .ok v
    | none => .error (.missing walked segment .absent)
  | .sequence items =>
    match segment.place? with
    | none => .error (.missing walked segment .needsIndex)
    | some n =>
      if 0 ≤ n then
        match items[n.toNat]? with
        | some v => .ok v
        | none => .error (.missing walked segment .outOfRange)
      -- A negative place counts from the back.
      else if -n ≤ items.length then
        match items[items.length - n.natAbs]? with
        | some v => .ok v
        | none => .error .beforeFront
      else .error .beforeFront
  | .scalar _ => .error (.missing walked segment .notContainer)

/-- Follows segments from a value that was reached by the walked ones. -/
def walk (σ : Store) (walked : List Segment) : List Segment → Value → Except EvalProblem Value
  | [], current => .ok current
  | segment :: rest, current => do
    let next ← follow σ (walked ++ [segment]) segment current
    walk σ (walked ++ [segment]) rest next

def valueAt (σ : Store) (segments : List Segment) (context : Value) : Except EvalProblem Value :=
  walk σ [] segments context

/-- The text that a value contributes to a text: itself, or a number as it is written. -/
def asPhrase? : Value → Option String
  | .atom (.text s) => some s
  | .atom (.int n) => some (Scalar.int n).shown
  | .atom (.float x) => some (Scalar.float x).shown
  | _ => none

def add (σ : Store) (left right : Value) : Except EvalProblem Value :=
  -- A text decides: with one on either side both have to be texts or numbers as texts.
  let mismatch : Except EvalProblem Value := .error (.mismatch (left.kindName σ) (right.kindName σ))
  if left.asText?.isSome ∨ right.asText?.isSome then
    match asPhrase? left, asPhrase? right with
    | some s, some t => .ok (.text (s ++ t))
    | _, _ => mismatch
  else
    match left, right with
    | .atom (.int m), .atom (.int n) => .ok (.int (m + n))
    | .atom (.float x), .atom (.float y) => .ok (.atom (.float (x + y)))
    -- An integer next to a double is rounded to one first, which fails beyond the largest.
    | .atom (.int m), .atom (.float y) => match Decimal.ofInt? m with
      | some x => .ok (.atom (.float (x + y)))
      | none => .error .tooLarge
    | .atom (.float x), .atom (.int n) => match Decimal.ofInt? n with
      | some y => .ok (.atom (.float (x + y)))
      | none => .error .tooLarge
    | _, _ => mismatch

/-- The value of a tree in a context. -/
def Tree.evaluate (σ : Store) (context : Value) : Tree → Except EvalProblem Value
  | .literal value => .ok value
  | .path segments => valueAt σ segments context
  | .binary _ left right => do
    let l ← evaluate σ context left
    let r ← evaluate σ context right
    add σ l r
  | .alien typeName => .error (.alien typeName)

end Switchyard.Expression

namespace Switchyard

/-- The value of an expression in a context. -/
def Expression.evaluate (σ : Store) (context : Value) (e : Expression) :
    Except Expression.EvalProblem Value :=
  e.root.evaluate σ context

end Switchyard
