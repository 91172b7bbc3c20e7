import Switchyard.PipelineProblem

/-!
# The table of pipelines

The pipelines that are served, by route, together with the units that their steps use. The units are
looked up once, when the table is built, so that later changes of the catalog do not reach it.
-/

namespace Switchyard

/-- The served pipelines and their units. A factory that yields nothing leaves its
name without a unit. -/
structure PipelineTable where
  pipelines : RouteMap Pipeline
  units : List (String × Option StepUnit)

namespace PipelineTable

/-- The table that serves nothing. -/
def empty : PipelineTable := ⟨[], []⟩

/-- The names of the units that pipelines use, in the order in which they first occur. -/
def usedNames (pipelines : List Pipeline) : List String :=
  (pipelines.flatMap fun p => p.steps.map (·.uses)).eraseDups

/-- Looks units up one after another. -/
def capture (catalog : Catalog) :
    List String → Except Raised (List (String × Option StepUnit)) × Catalog
  | [] => (.ok [], catalog)
  | name :: rest =>
    match catalog.get name with
    | (.error e, catalog) => (.error e, catalog)
    | (.ok unit, catalog) =>
      match capture catalog rest with
      | (.error e, catalog) => (.error e, catalog)
      | (.ok units, catalog) => (.ok ((name, unit) :: units), catalog)

/-- The table of some pipelines, which must have no problems. -/
def build (catalog : Catalog) (pipelines : List Pipeline)
    (reserved : List String := reservedNames) : Except Raised PipelineTable × Catalog :=
  match PipelineProblem.validate reserved catalog.contains pipelines with
  | .error e => (.error e, catalog)
  | .ok () => match capture catalog (usedNames pipelines) with
    | (.ok units, catalog) =>
      (.ok ⟨RouteMap.ofList (pipelines.map fun p => (p.route, p)), units⟩, catalog)
    | (.error e, catalog) => (.error e, catalog)

def find? (table : PipelineTable) (route : Route) : Option Pipeline := table.pipelines.find? route

/-- The pipeline of a route that must be served. -/
def resolve (table : PipelineTable) (route : Route) : Except Raised Pipeline :=
  match table.find? route with
  | some pipeline => .ok pipeline
  | none => .error (.fault (.noRoute route.interface route.method))

def unitNamed (table : PipelineTable) (uses : String) : Except Raised (Option StepUnit) :=
  match table.units.lookup uses with
  | some unit => .ok unit
  | none => .error (.broken "KeyError" (Text.quoted uses))

def size (table : PipelineTable) : Nat := table.pipelines.length

def routes (table : PipelineTable) : List Route := Route.sorted table.pipelines.routes

def displayed (table : PipelineTable) : String :=
  "PipelineRegistry(routes=" ++ toString table.size ++ ", units=" ++
    toString table.units.length ++ ")"

end PipelineTable

end Switchyard
