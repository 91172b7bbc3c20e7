import Switchyard.Dispatcher
import Switchyard.Report.Outcome

/-!
# Definitions as data

How expressions, bindings, steps, pipelines, units and routes are told to a host that takes data.
-/

namespace Switchyard

def Expression.Segment.toValue : Expression.Segment → Value
  | .name s => .text s
  | .index n => .int n
  | .flag b => .bool b

def Expression.Tree.toValue : Expression.Tree → Value
  | .literal v => .record [("literal", v)]
  | .path segments =>
    .record [("path", .list (segments.map (·.toValue))),
      ("dotted", .text (Expression.dotted segments))]
  | .binary operator left right =>
    .record [("op", .text operator), ("left", left.toValue), ("right", right.toValue)]
  | .alien typeName => .atom (.foreign typeName typeName)

mutual

def Binding.toValue : Binding → Value
  | .literal v => .record [("literal", v)]
  | .expression e => .record [("expression", .text e.source)]
  | .list items => .record [("list", .list (Binding.itemsToValues items))]
  | .map entries => .record [("map", .list (Binding.entriesToValues entries))]

def Binding.itemsToValues : List Binding → List Value
  | [] => []
  | b :: rest => b.toValue :: Binding.itemsToValues rest

def Binding.entriesToValues : List (String × Binding) → List Value
  | [] => []
  | (k, b) :: rest => .list [.text k, b.toValue] :: Binding.entriesToValues rest

end

def Step.bindingsValue (s : Step) : Value := (Binding.map s.bindings).toValue

def Step.toValue (s : Step) : Value :=
  .list [.text s.name, .text s.uses, .text s.summary, s.bindingsValue]

/-- A pipeline in short: its route, the names of its steps, and its output. -/
def Pipeline.headValues (p : Pipeline) : List Value :=
  [.text p.route.text, .texts p.stepNames, Value.orNull .text p.output]

def StepUnit.toValue (u : StepUnit) : Value :=
  .record [("type", .text u.typeName), ("name", .text u.name), ("unit", .bool true),
    ("repr", Value.orNull .text u.displayed)]

def UnitEntry.toValue (e : UnitEntry) : Value :=
  .record [("name", .text e.name), ("version", .text e.version),
    ("description", .text e.description), ("tags", .texts e.tags),
      ("unit_type", Value.orNull (fun u => .text u.typeName) e.unit?), ("config", e.config)]

def RouteSummary.toValue (i : RouteSummary) : Value :=
  .record [("interface", .text i.route.interface), ("method", .text i.route.method),
    ("steps", .int i.steps), ("authorization", .text i.authorization)]

end Switchyard
