import Switchyard.Dispatcher
import Switchyard.Settings.Basic

/-!
# From settings to a dispatcher

Settings become pipelines, a gate and the table that serves both. Every expression is read then, so
that malformed source shows at once: all of it is reported together. A pipeline that does not say
who may use it gets no policy, so the gate denies it to everyone, and a warning says so.
-/

namespace Switchyard

/-- A step with its configuration compiled, or what its malformed source amounts to. -/
def StepSettings.compile (route : Route) (index : Nat) (step : StepSettings) :
    Compilation (Except String Step) :=
  tryCatch (do pure (.ok (← Step.make step.name step.uses (.map step.config) step.summary)))
    fun e =>
    match e with
    | .fault (.malformed what source position) =>
      let message := (Fault.malformed what source position).message.shown .empty
      pure (.error (PipelineProblem.stepText route index ++ " '" ++ step.name ++ "': " ++ message))
    | e => throw e

/-- Compiles steps, the first of which is at `index`; malformed source in one does not keep the
others from being compiled. -/
def StepSettings.compileAll (route : Route) :
    (index : Nat) → List StepSettings → Compilation (List Step × List String)
  | _, [] => pure ([], [])
  | index, step :: rest => do
    let compiled ← step.compile route index
    let (steps, problems) ← StepSettings.compileAll route (index + 1) rest
    pure <| match compiled with
      | .ok step => (step :: steps, problems)
      | .error problem => (steps, problem :: problems)

def PipelineSettings.compileAll : List PipelineSettings → Compilation (List Pipeline × List String)
  | [] => pure ([], [])
  | pipeline :: rest => do
    let (steps, problems) ← StepSettings.compileAll pipeline.route 0 pipeline.steps
    let (pipelines, more) ← PipelineSettings.compileAll rest
    pure (⟨pipeline.route, steps, pipeline.output, pipeline.summary⟩ :: pipelines, problems ++ more)

namespace Settings

def sizeCache (settings : Settings) : Compilation Unit := fun cache =>
  cache.resize settings.engine.cacheSize

def compilePipelines (settings : Settings) : Compilation (List Pipeline) := do
  settings.sizeCache
  let (pipelines, problems) ← PipelineSettings.compileAll settings.pipelines
  if problems.isEmpty then pure pipelines
  else throw (.fault (.ofProblems
    ("Invalid expressions in " ++ toString problems.length ++ " step(s)") problems))

def policy (settings : Settings) (access : AccessSettings) : Policy :=
  ⟨access.unauthenticated, access.permissions, access.roles,
    access.mode.getD settings.engine.defaultMode⟩

/-- The gate of settings: one policy for each pipeline that says who may use it. -/
def gate (settings : Settings) : Gate :=
  .ofEntries (settings.pipelines.filterMap fun pipeline =>
    pipeline.access.map fun access => (pipeline.route, settings.policy access))

/-- The lines that are logged when the gate is made. -/
def gateWarnings (settings : Settings) : List LogLine :=
  (settings.pipelines.filter (·.access.isNone)).map (fun pipeline =>
    ⟨"config.builder", .warning,
      "Route " ++ pipeline.route.text ++ " has no authorization entry and will deny every caller"⟩)
    ++ settings.gate.warnings

/-- The table that serves the pipelines of settings. -/
def routeTable (settings : Settings) (catalog : Catalog) : Compilation ServedTable := do
  let pipelines ← settings.compilePipelines
  match (PipelineTable.build catalog.addBuiltins pipelines).1 with
  | .ok table => pure ⟨table, settings.gate⟩
  | .error e => throw e

/-- The dispatcher that settings ask for, and the service that it starts with. -/
def serve (settings : Settings) (catalog : Catalog) (hooks : Hooks) (newId : Nat → String) :
    Compilation (Dispatcher × Service) := do
  let table ← settings.routeTable catalog
  let timeout := settings.engine.timeout.map fun x => Value.atom (.float x)
  pure (⟨hooks, timeout, settings.engine.offload, newId⟩, { table })

end Settings

/-- Serves the pipelines of other settings from now on. Nothing changes if they cannot be built, and
the limits of the dispatcher stay as they are in any case. -/
def Service.adopt (service : Service) (settings : Settings) (catalog : Catalog) :
    Compilation Service := do
  pure (service.reload (← settings.routeTable catalog))

end Switchyard
