import Switchyard.Binding.Compile
import Switchyard.Route

/-!
# Pipelines

A pipeline answers one route by running steps in order. A step names a unit and the configuration
that the unit is called with; its expressions are read when the step is made.
-/

namespace Switchyard

/-- One unit of work in a pipeline. -/
structure Step where
  name : String
  uses : String
  bindings : List (String × Binding)
  summary : String := ""
  deriving Inhabited

/-- The steps that answer a route. `output` names the step whose output is the value; without it
the last step's is. -/
structure Pipeline where
  route : Route
  steps : List Step := []
  output : Option String := none
  summary : String := ""
  deriving Inhabited

namespace Step

def make (name uses : String) (config : Value) (summary : String) : Compilation Step := do
  let bindings ← Binding.compileRecord config
  pure ⟨name, uses, bindings, summary⟩

end Step

def Pipeline.stepNames (pipeline : Pipeline) : List String := pipeline.steps.map (·.name)

end Switchyard
