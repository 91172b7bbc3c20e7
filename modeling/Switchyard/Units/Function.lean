import Switchyard.Units.Basic

/-!
# Functions as units

A function becomes a unit by being called with the configuration alone or with the
configuration and the caller, depending on the parameters that it declares. A function whose
parameters are not known gets both.
-/

namespace Switchyard

/-- How arguments find a parameter. -/
inductive ParameterKind
  /-- By place only. -/
  | placed
  /-- By place or by name. -/
  | plain
  /-- Takes all further arguments that come by place. -/
  | rest
  /-- By name only. -/
  | named
  /-- Takes all further arguments that come by name. -/
  | others
  deriving DecidableEq, Repr

/-- A parameter of a function. -/
structure Parameter where
  name : String
  kind : ParameterKind := .plain
  default : Option Value := none
  deriving Inhabited

namespace Parameter

/-- Whether an argument by place can fill the parameter. -/
def isPositional (p : Parameter) : Bool := p.kind = .placed || p.kind = .plain

/-- The value of a parameter that got no argument. -/
def unfilled (p : Parameter) : Option Value :=
  match p.kind with
  | .rest => some (.tuple [])
  | .others => some (.map [])
  | .placed | .plain | .named => p.default

end Parameter

/-- Binds arguments that come by place to parameters, in the order of the parameters. Arguments may
not be left over, and a parameter without an argument needs a default. -/
def bindArguments : List Parameter → List Value → Option (List (String × Value))
  | [], [] => some []
  | [], _ :: _ => none
  | p :: rest, args =>
    -- All that is left goes to this parameter.
    if p.kind = .rest then (bindArguments rest []).map ((p.name, .tuple args) :: ·)
    else match args with
      | v :: more =>
        -- A parameter that comes by name only is passed over, and the argument goes to a later one.
        if p.isPositional then (bindArguments rest more).map ((p.name, v) :: ·)
        else p.unfilled.bind fun d => (bindArguments rest args).map ((p.name, d) :: ·)
      | [] => p.unfilled.bind fun d => (bindArguments rest []).map ((p.name, d) :: ·)

/-- A function that can serve as a unit. -/
structure Function where
  /-- The parameters, if they are known. -/
  parameters : Option (List Parameter)
  /-- What the function says about itself. -/
  note : String := ""
  /-- The result for the values of the parameters; if these are not known, for all
  arguments under one name. -/
  result : List (String × Value) → Value

namespace Function

/-- The name under which a function with unknown parameters finds its arguments. -/
def argumentsName : String := "args"

/-- Whether a function is called with the caller beside the configuration. -/
def takesCaller (f : Function) : Bool :=
  match f.parameters with
  | none => true
  | some parameters =>
    -- There is room for a second argument.
    parameters.any (·.kind = .rest) || decide (2 ≤ (parameters.filter (·.isPositional)).length)

def apply (f : Function) (args : List Value) : Except Raised Value :=
  match f.parameters with
  | none => .ok (f.result [(argumentsName, .tuple args)])
  | some parameters => match bindArguments parameters args with
    | some bound => .ok (f.result bound)
    | none => .error (.broken "TypeError" "the arguments do not fit the parameters")

def callerArgument : Caller → Value
  | .invocation scope _ => .atom (.foreign "InvocationContext" scope.displayed)
  | .other data => data

/-- The arguments that a function is called with. -/
def arguments (f : Function) (config : Value) (caller : Caller) : List Value :=
  if f.takesCaller then [config, callerArgument caller] else [config]

def toUnit (name : String) (f : Function) : StepUnit where
  name
  typeName := "FunctionUnit"
  behaviour := some fun config caller => Call.settle (f.apply (f.arguments config caller))
  displayed := some ("FunctionUnit(name=" ++ Text.quoted name ++ ")")

end Function

end Switchyard
