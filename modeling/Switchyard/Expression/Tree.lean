import Switchyard.Value.Written

/-!
# Expression trees

An expression is a literal, a path of fields that starts at a root of the data it is evaluated
against, or two expressions joined by an operator. The only operator with a spelling is `+`.
-/

namespace Switchyard.Expression

/-- One step of a path: the name of a field or the place of an item. -/
inductive Segment
  | name (s : String)
  | index (n : Int)
  /-- A truth value: a name for maps, zero or one for lists. -/
  | flag (b : Bool)
  deriving DecidableEq, Repr, Inhabited

namespace Segment

def key : Segment → String
  | .name s => s
  | .index n => toString n
  | .flag b => if b then "True" else "False"

def place? : Segment → Option Int
  | .name _ => none
  | .index n => some n
  | .flag b => some (if b then 1 else 0)

def ofValue : Value → Segment
  | .atom (.int n) => .index n
  | .atom (.bool b) => .flag b
  | v => .name (v.shown .empty)

end Segment

/-- The tree of an expression. -/
inductive Tree
  | literal (value : Value)
  | path (segments : List Segment)
  | binary (operator : String) (left right : Tree)
  /-- Something that is no expression, named by its type. -/
  | alien (typeName : String)
  deriving Inhabited

def dotted (segments : List Segment) : String := ".".intercalate (segments.map Segment.key)

end Switchyard.Expression

namespace Switchyard

/-- An expression together with the source it was read from. -/
structure Expression where
  source : String
  root : Expression.Tree
  deriving Inhabited

end Switchyard
