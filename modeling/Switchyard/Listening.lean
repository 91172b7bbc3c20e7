import Switchyard.Listener

/-!
# Requests that listeners are told of

Requests are handled before listeners as they are before hooks, but that the error which gets out of
a call of a listener ends what made the call: the step, with it the run, and with it the handling of
the request. Only an error by which a time limit shows when it passes is caught on its way out of a
run; it is taken for that.

No failure of a listener is caught elsewhere. An error counts as that of a time limit by its class.
-/

namespace Switchyard

namespace Raised

/-- Whether an error is one by which a time limit shows that it has passed. -/
def isTimeout (e : Raised) : Bool := e.className == "TimeoutError"

end Raised

namespace Listeners

/-! ## §1 Runs -/

def endWithError (listeners : Listeners) (number : Nat) (step : Step) (index : Nat) (e : Raised)
    (w : World) : Activity World StepEnd :=
  match Engine.failureAt step index e with
  | .ok failure =>
    listeners.telling number
      [.audit (step.anomalyCall index failure), .metric (step.failureSample failure)] .escaped
      (fun w => .done w (.failed failure)) w
  | .error e => .done w (.escaped e)

def endWithOutput (listeners : Listeners) (number : Nat) (step : Step) (scope : Scope)
    (output : Value) (w : World) : Activity World StepEnd :=
  match scope.record step.name output w.store with
  | .ok (scope, store) =>
    listeners.telling number
      [.audit (step.endCall (List.length scope.outputs)), .metric step.durationSample] .escaped
      (fun w => .done w (.recorded scope)) (w.withStore store)
  | .error e => .done w (.escaped e)

/-- Ends a step with what its unit answered. -/
def endWith (listeners : Listeners) (number : Nat) (step : Step) (index : Nat) (scope : Scope)
    (w : World) : Except Raised Value → Activity World StepEnd
  | .error e => listeners.endWithError number step index e w
  | .ok output => listeners.endWithOutput number step scope output w

/-- Runs one step of which the listeners have been told that it starts. -/
def work (listeners : Listeners) (table : PipelineTable) (invocation : Invocation) (step : Step)
    (index : Nat) (scope : Scope) (w : World) : Activity World StepEnd :=
  match Binding.resolveRecord scope.context step.bindings w.store with
  | .error e => listeners.endWithError invocation.number step index e.raised w
  | .ok (config, store) =>
    (World.act ((⟨table, {}⟩ : Engine).work step config (.invocation scope invocation.signal))
      (w.withStore store)).bind (listeners.endWith invocation.number step index scope)

/-- Runs one step. -/
def runStep (listeners : Listeners) (table : PipelineTable) (invocation : Invocation) (step : Step)
    (index : Nat) (scope : Scope) : World → Activity World StepEnd :=
  listeners.telling invocation.number [.audit (step.startCall index)] .escaped
    (listeners.work table invocation step index scope)

/-- Runs steps, the first of which is at `index`. -/
def runSteps (listeners : Listeners) (table : PipelineTable) (invocation : Invocation)
    (pipeline : Pipeline) :
    (index : Nat) → List Step → Scope → World → Activity World (Except Raised Outcome)
  | _, [], scope, w =>
    .done w ((Engine.answerOf pipeline scope).map (Outcome.success · scope.outputs))
  | index, step :: rest, scope, w =>
    if w.surroundings.isGiven invocation.signal then .done w (Engine.calledOff step index)
    else (listeners.runStep table invocation step index scope w).bind fun w ended =>
      match ended with
      | .recorded scope => listeners.runSteps table invocation pipeline (index + 1) rest scope w
      | .failed failure => .done w (.ok (.failed failure []))
      | .escaped e => .done w (.error e)

/-- Runs a pipeline. -/
def run (listeners : Listeners) (table : PipelineTable) (pipeline : Pipeline)
    (invocation : Invocation) (w : World) : Activity World (Except Raised Outcome) :=
  let (scope, store) :=
    Scope.start invocation.input invocation.claims invocation.correlationId w.store
  listeners.runSteps table invocation pipeline 0 pipeline.steps scope (w.withStore store)

/-! ## §2 Requests -/

/-- Tells the listeners that an invocation ended, and answers the caller. -/
def settle (listeners : Listeners) (number : Nat) (route : Route) (id : String)
    (ended : Except Raised Outcome) (w : World) : Activity World (Except Raised Response) :=
  match ended with
  | .error e => .done w (.error e)
  | .ok outcome =>
    listeners.telling number (Dispatcher.endCalls route outcome) .error
      (fun w => .done w (.ok { outcome, correlationId := some id })) w

/-- Ends an invocation whose limit has passed. -/
def timeOut (listeners : Listeners) (number : Nat) (route : Route) (id : String) (limit : Value) :
    World → Activity World (Except Raised Response) :=
  let fault : Fault := .cancelled
    (.text ("Invocation timed out after " ++ limit.shown .empty ++ " seconds"))
    [(.text "timeout_seconds", limit)]
  listeners.telling number [.audit (Dispatcher.latenessCall route limit)] .error
    (listeners.settle number route id
      ((Failure.ofFault fault).raise.map (Outcome.failed · [])))

/-- Ends an invocation whose run is over. -/
def conclude (listeners : Listeners) (d : Dispatcher) (number : Nat) (route : Route) (id : String)
    (ended : Except Raised Outcome) (w : World) : Activity World (Except Raised Response) :=
  match ended with
  | .error e =>
    if e.isTimeout then listeners.timeOut number route id (d.timeout.getD .null) w
    else .done w (.error e)
  | .ok outcome => listeners.settle number route id (.ok outcome) w

/-- Runs a pipeline within the limit and answers the caller. -/
def runWithin (listeners : Listeners) (d : Dispatcher) (table : PipelineTable) (route : Route)
    (pipeline : Pipeline) (invocation : Invocation) (id : String) :
    World → Activity World (Except Raised Response) :=
  let number := invocation.number
  match d.timeout with
  | none => fun w =>
    (listeners.run table pipeline invocation w).bind fun w ended =>
      listeners.conclude d number route id ended w
  | some limit =>
    if Dispatcher.hasPassed limit then
      Activity.later (Activity.later (Activity.later (listeners.timeOut number route id limit)))
    else
      Activity.later fun w =>
        (((listeners.run table pipeline invocation w).map some).limited fun w => .done w none).bind
          fun w ended => match ended with
            | none => listeners.timeOut number route id limit w
            | some ended =>
              Activity.later (Activity.later (listeners.conclude d number route id ended)) w

/-- Goes on with a request of which the listeners have been told that it came in. -/
def serve (listeners : Listeners) (d : Dispatcher) (table : ServedTable) (number : Nat)
    (request : Request) (id : String) (w : World) : Activity World (Except Raised Response) :=
  let route := request.route
  match table.pipelines.find? route with
  | none =>
    listeners.settle number route id
      ((Failure.ofFault (.noRoute route.interface route.method)).raise.map
        (Outcome.failed · [])) w
  | some pipeline =>
    let claims := request.credentials.resolve
    let decision := table.gate.check route claims
    if !decision.allowed then
      listeners.telling number
        [.audit (Dispatcher.denialCall route decision), .metric (Dispatcher.denialSample route)]
        .error (listeners.settle number route id (.ok (.failed Failure.denial []))) w
    else
      let invocation : Invocation :=
        { number, input := request.input, claims, correlationId := some id,
          signal := request.signal }
      listeners.runWithin d table.pipelines route pipeline invocation id w

/-- Answers a request from a table. -/
def answer (listeners : Listeners) (d : Dispatcher) (table : ServedTable) (number : Nat)
    (request : Request) (id : String) : World → Activity World (Except Raised Response) :=
  listeners.telling number [.audit (.identified id)] .error
    (listeners.serve d table number request id)

/-- Handles a request as a dispatcher does, before these listeners in place of its hooks. -/
def handle (listeners : Listeners) (d : Dispatcher) (request : Request) (service : Service) :
    Activity Service (Except Raised Response) :=
  let id := d.idOf service request
  let number := service.received
  -- An error leaves a coroutine here.
  let answering := listeners.answer d service.current number request id service.world
  (answering.map (·.mapError Raised.passedOn)).within (·.world)
    (fun service world => { service with world }) { service with received := number + 1 }

end Listeners

end Switchyard
