import Switchyard.Binding.Resolve
import Switchyard.PipelineTable
import Switchyard.World

/-!
# Running pipelines

The steps of a pipeline run in order. Each step's configuration is resolved against the scope of the
invocation, its unit is called, and the output is recorded under the name of the step. The first
step that fails ends the run; no later unit is called, and the outputs so far are not told.

Before each step the run looks whether it has been called off. Three things escape a run instead of
becoming a failure: that its caller is gone, a failure that is itself not of the right form, and an
output that is recorded twice or missing, which cannot happen in a table that has been checked.

Units are called in the turn of their invocation. That they may be called in other threads
instead is left out here.
-/

namespace Switchyard

/-- What an invocation brings along. -/
structure Invocation where
  /-- The number under which hook calls are kept. -/
  number : Nat := 0
  input : Value := .null
  claims : Option Claims := none
  correlationId : Option String := none
  /-- The signal that calls the invocation off. -/
  signal : Option Nat := none

/-- How a step ended. -/
inductive StepEnd
  | recorded (scope : Scope)
  | failed (failure : Failure)
  | escaped (e : Raised)

/-- The pipelines that are served, and the hooks that listen. -/
structure Engine where
  table : PipelineTable
  hooks : Hooks

namespace Engine

/-- The failure of a step that an error amounts to, unless the error escapes. The unit of the step
was called within a coroutine, so what is told is what that has passed on. -/
def failureAt (step : Step) (index : Nat) (e : Raised) : Except Raised Failure :=
  match e.passedOn with
  | .abandoned => .error .abandoned
  | .fault f => (Failure.atStep f.kind f.message step.name index f.details).raise
  -- Errors of other kinds have no data of their own, only their words and their class.
  | e => (Failure.atStep .stepFailure (.text e.words) step.name index
      [(.text "exception_class", .text e.className)]).raise

/-- What the unit of a step does with a configuration. -/
def work (engine : Engine) (step : Step) (config : Value) (caller : Caller) : Call :=
  match engine.table.unitNamed step.uses with
  | .error e => .raise e
  | .ok none => .raise (.broken "AttributeError" "'NoneType' object has no attribute 'invoke'")
  | .ok (some unit) => match unit.behaviour with
    | some behaviour => behaviour config caller
    | none =>
      .raise (.broken "AttributeError"
        ("'" ++ unit.typeName ++ "' object has no attribute 'invoke'"))

def reportFailure (engine : Engine) (number : Nat) (step : Step) (index : Nat)
    (failure : Failure) (w : World) : World :=
  let w := w.audit engine.hooks number (.anomaly
    ("Step '" ++ step.name ++ "' failed: " ++ failure.message) "WARNING"
    [(.text "step", .text step.name), (.text "step_index", .int index),
      (.text "kind", .text failure.kind.code)])
  w.measure engine.hooks number ⟨.count, "step_failures_total", some (.int 1),
    [(.text "step", .text step.name), (.text "kind", .text failure.kind.code)]⟩

def reportEnd (engine : Engine) (number : Nat) (step : Step) (outputs : Nat) (w : World) : World :=
  let w := w.audit engine.hooks number (.stepEnded step.name outputs none [])
  w.measure engine.hooks number ⟨.timing, "step_duration_seconds", none,
    [(.text "step", .text step.name), (.text "unit", .text step.uses)]⟩

def endWithError (engine : Engine) (number : Nat) (step : Step) (index : Nat)
    (e : Raised) (w : World) : Activity World StepEnd :=
  match failureAt step index e with
  | .ok failure => .done (engine.reportFailure number step index failure w) (.failed failure)
  | .error e => .done w (.escaped e)

def endWithOutput (engine : Engine) (number : Nat) (step : Step) (scope : Scope)
    (output : Value) (w : World) : Activity World StepEnd :=
  match scope.record step.name output w.store with
  | .ok (scope, store) =>
    .done (engine.reportEnd number step (List.length scope.outputs) (w.withStore store))
      (.recorded scope)
  | .error e => .done w (.escaped e)

/-- Runs one step. -/
def runStep (engine : Engine) (invocation : Invocation) (step : Step) (index : Nat)
    (scope : Scope) (w : World) : Activity World StepEnd :=
  let w := w.audit engine.hooks invocation.number
    (.stepStarted step.name index [(.text "uses", .text step.uses)])
  -- The bindings see the outputs so far; no unit has been called yet if they fail.
  match Binding.resolveRecord scope.context step.bindings w.store with
  | .error e => engine.endWithError invocation.number step index e.raised w
  | .ok (config, store) =>
    (World.act (engine.work step config (.invocation scope invocation.signal))
      (w.withStore store)).bind fun w answer =>
      match answer with
      | .error e => engine.endWithError invocation.number step index e w
      | .ok output => engine.endWithOutput invocation.number step scope output w

/-- The failure of a run that was called off before a step. -/
def calledOff (step : Step) (index : Nat) : Except Raised Outcome :=
  (Failure.atStep .cancelled (.text "Invocation cancelled") step.name index []).raise.map
    (Outcome.failed · [])

/-- The value of a run whose steps all succeeded: that of the designated output, else of the last
step, else the input. -/
def answerOf (pipeline : Pipeline) (scope : Scope) : Except Raised Value :=
  match pipeline.output with
  | some name => scope.outputs.get name
  | none => match scope.outputs.last with
    | some (_, v) => .ok v
    | none => .ok scope.input

/-- Runs steps, the first of which is at `index`. -/
def runSteps (engine : Engine) (invocation : Invocation) (pipeline : Pipeline) :
    (index : Nat) → List Step → Scope → World → Activity World (Except Raised Outcome)
  | _, [], scope, w => .done w ((answerOf pipeline scope).map (Outcome.success · scope.outputs))
  | index, step :: rest, scope, w =>
    -- Calling a run off takes effect between steps only.
    if w.surroundings.isGiven invocation.signal then .done w (calledOff step index)
    else (engine.runStep invocation step index scope w).bind fun w ended =>
      match ended with
      | .recorded scope => engine.runSteps invocation pipeline (index + 1) rest scope w
      -- The outputs so far are not told.
      | .failed failure => .done w (.ok (.failed failure []))
      | .escaped e => .done w (.error e)

/-- Runs a pipeline. -/
def run (engine : Engine) (pipeline : Pipeline) (invocation : Invocation) (w : World) :
    Activity World (Except Raised Outcome) :=
  let (scope, store) :=
    Scope.start invocation.input invocation.claims invocation.correlationId w.store
  engine.runSteps invocation pipeline 0 pipeline.steps scope (w.withStore store)

end Engine

end Switchyard
