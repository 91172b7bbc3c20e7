import Switchyard.Expression.Parser

/-!
# Bindings

The configuration of a step mixes data with expressions. Compiled, it is a tree of *bindings*:
literal data, an expression, and the lists and maps that hold an expression somewhere.

Raw configuration marks an expression in two ways: by a marker scalar, and by a map whose only key
is `$expr` and whose value is the source.
-/

namespace Switchyard

/-- A compiled configuration value. -/
inductive Binding
  | literal (value : Value)
  | expression (e : Expression)
  | list (items : List Binding)
  | map (entries : List (String × Binding))
  deriving Inhabited

def expressionKey : String := "$expr"

namespace Binding

/-- Whether nothing has to be evaluated to resolve the binding. -/
def isLiteral : Binding → Bool
  | .literal _ => true
  | _ => false

/-- The source that a raw value marks as an expression. -/
def markedSource? : Value → Option String
  | .atom (.marker source) => some source
  | .map [(.text key, .atom (.text source))] => if key = expressionKey then some source else none
  | _ => none

end Binding

end Switchyard
