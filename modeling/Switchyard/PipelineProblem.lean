import Switchyard.Pipeline
import Switchyard.Units.Catalog

/-!
# Problems of pipelines

Pipelines are checked before they are served. All problems of all pipelines are found, in the order
of the pipelines and of their steps: routes without a name or declared twice, steps whose names are
missing, reserved or taken, units that are not registered, and outputs that no step has.
-/

namespace Switchyard

/-- What is wrong with a pipeline. -/
inductive PipelineProblem
  | emptyRoute (route : Route)
  | repeatedRoute (route : Route)
  | emptyName (route : Route) (index : Nat)
  | reservedName (route : Route) (index : Nat) (name : String)
  | repeatedName (route : Route) (index : Nat) (name : String)
  | unknownUnit (route : Route) (index : Nat) (uses : String)
  | unknownOutput (route : Route) (output : String)
  deriving DecidableEq, Repr

/-- The names that steps may not have, since expressions see other data under them. -/
def reservedNames : List String := [Scope.inputRoot, Scope.stepsRoot]

namespace PipelineProblem

def stepText (route : Route) (index : Nat) : String := route.text ++ " step #" ++ toString index

def text : PipelineProblem → String
  | .emptyRoute route => route.text ++ ": interface and method must be non-empty"
  | .repeatedRoute route => route.text ++ ": route is declared more than once"
  | .emptyName route index => stepText route index ++ ": step name must be non-empty"
  | .reservedName route index name =>
    stepText route index ++ ": step name '" ++ name ++ "' is reserved"
  | .repeatedName route index name =>
    stepText route index ++ ": duplicate step name '" ++ name ++ "'"
  | .unknownUnit route index uses =>
    stepText route index ++ ": unknown computation unit '" ++ uses ++ "'"
  | .unknownOutput route output => route.text ++ ": output step '" ++ output ++ "' is not defined"

/-- The problem with the name of a step, given the names before it. -/
def ofName (reserved : List String) (route : Route) (index : Nat) (before : List String)
    (name : String) : Option PipelineProblem :=
  if name = "" then some (.emptyName route index)
  else if reserved.contains name then some (.reservedName route index name)
  else if before.contains name then some (.repeatedName route index name)
  else none

def ofUnit (known : String → Bool) (route : Route) (index : Nat) (uses : String) :
    Option PipelineProblem :=
  if known uses then none else some (.unknownUnit route index uses)

/-- The problems of steps, the first of which is at `index` and comes after steps with
the names `before`. -/
def ofSteps (reserved : List String) (known : String → Bool) (route : Route) :
    (index : Nat) → (before : List String) → List Step → List PipelineProblem
  | _, _, [] => []
  | index, before, step :: rest =>
    (ofName reserved route index before step.name).toList ++
      (ofUnit known route index step.uses).toList ++
      ofSteps reserved known route (index + 1) (before ++ [step.name]) rest

def ofOutput (pipeline : Pipeline) : Option PipelineProblem :=
  match pipeline.output with
  | some output =>
    if pipeline.stepNames.contains output then none else some (.unknownOutput pipeline.route output)
  | none => none

/-- The problems with a route, given the routes before it. -/
def ofRoute (before : List Route) (route : Route) : List PipelineProblem :=
  (if route.interface = "" ∨ route.method = "" then [.emptyRoute route] else []) ++
    (if before.contains route then [.repeatedRoute route] else [])

/-- The problems of one pipeline, given the routes before it. -/
def ofPipeline (reserved : List String) (known : String → Bool) (before : List Route)
    (pipeline : Pipeline) : List PipelineProblem :=
  ofRoute before pipeline.route ++ ofSteps reserved known pipeline.route 0 [] pipeline.steps ++
    (ofOutput pipeline).toList

/-- The problems of pipelines that come after others with the routes `before`. -/
def ofPipelines (reserved : List String) (known : String → Bool) :
    (before : List Route) → List Pipeline → List PipelineProblem
  | _, [] => []
  | before, pipeline :: rest =>
    ofPipeline reserved known before pipeline ++
      ofPipelines reserved known (before ++ [pipeline.route]) rest

/-- All problems of some pipelines. -/
def find (reserved : List String) (known : String → Bool) (pipelines : List Pipeline) :
    List PipelineProblem :=
  ofPipelines reserved known [] pipelines

def fault (problems : List PipelineProblem) : Fault :=
  let texts := problems.map text
  .ofProblems ("Invalid pipeline configuration: " ++ "; ".intercalate texts) texts

/-- Passes pipelines that have no problems, and tells all problems of others. -/
def validate (reserved : List String) (known : String → Bool) (pipelines : List Pipeline) :
    Except Raised Unit :=
  match find reserved known pipelines with
  | [] => .ok ()
  | problems => .error (.fault (fault problems))

end PipelineProblem

end Switchyard
