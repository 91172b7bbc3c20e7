import Switchyard.Engine
import Switchyard.Gate

/-!
# Dispatching

A dispatcher answers requests: it looks the route up, asks the gate, runs the pipeline and tells the
caller how the invocation ended. A request is answered from the route table that is current when the
request comes in, whatever happens to the table while the invocation runs.

With a time limit the run is a task of its own: the handler steps aside once before the task starts
and twice after it has ended. A limit that is not positive has passed before the task starts. A unit
whose wait is called off does not go on as if nothing had happened.
-/

namespace Switchyard

/-- The pipelines and the policies that are served together. -/
structure ServedTable where
  pipelines : PipelineTable
  gate : Gate

/-- The table that serves nothing. -/
def ServedTable.empty : ServedTable := ⟨.empty, .empty⟩

/-- The claims that come with a request: ready-made, or a token that is still to be read. -/
inductive Credentials
  | known (claims : Option Claims)
  | token (data : Value)

/-- The claims of a caller; a malformed token counts as none. -/
def Credentials.resolve : Credentials → Option Claims
  | .known claims => claims
  | .token data => match Claims.ofToken data with
    | .ok claims => claims
    | .error _ => none

/-- A request for an invocation. -/
structure Request where
  route : Route
  credentials : Credentials := .known none
  input : Value := .null
  correlationId : Option String := none
  signal : Option Nat := none

/-- What stays the same as long as a dispatcher lives. -/
structure Dispatcher where
  hooks : Hooks := {}
  /-- The limit of an invocation in seconds. -/
  timeout : Option Value := none
  /-- Whether units are called in threads of their own, which makes no difference here. -/
  offload : Bool := false
  /-- The supply of identifiers for requests that bring none. -/
  newId : Nat → String

/-- What changes while a dispatcher serves. -/
structure Service where
  table : ServedTable
  world : World := {}
  /-- How many requests have come in. -/
  received : Nat := 0

/-- What is told about a served route. -/
structure RouteSummary where
  route : Route
  steps : Nat
  authorization : String
  deriving DecidableEq, Repr

namespace Service

/-- The table that new requests are answered from. -/
def current (service : Service) : ServedTable :=
  if service.world.surroundings.withdrawn then .empty else service.table

/-- Serves another table from now on. -/
def reload (service : Service) (table : ServedTable) : Service :=
  { service with
    table
    world := { service.world with
      surroundings := { service.world.surroundings with withdrawn := false } } }

def routeSummaries (service : Service) : List RouteSummary :=
  let table := service.current
  table.pipelines.routes.map fun route =>
    { route
      steps := ((table.pipelines.find? route).map (·.steps.length)).getD 0
      authorization := match table.gate.policyOf? route with
        | some policy => policy.describe
        | none => "denied" }

end Service

namespace Dispatcher

/-- The identifier of a request: its own unless it is empty, else a new one. -/
def idOf (d : Dispatcher) (service : Service) (request : Request) : String :=
  match request.correlationId with
  -- An empty identifier counts as none.
  | some id => if id = "" then d.newId service.received else id
  | none => d.newId service.received

/-- Whether a limit has passed from the start. -/
def hasPassed (limit : Value) : Bool :=
  match limit with
  | .atom (.float x) => decide (x ≤ 0)
  | .atom k => match k.asInt? with
    | some n => decide (n ≤ 0)
    | none => false
  | _ => false

/-- Tells the hooks that an invocation ended, and answers the caller. -/
def conclude (d : Dispatcher) (number : Nat) (route : Route) (id : String)
    (outcome : Outcome) (w : World) : World × Except Raised Response :=
  let tags := [(.text "route", .text route.text), (.text "outcome", .text outcome.label)]
  let w := w.measure d.hooks number ⟨.timing, "invocation_duration_seconds", none, tags⟩
  let w := w.measure d.hooks number ⟨.count, "invocations_total", some (.int 1), tags⟩
  (w, .ok { outcome, correlationId := some id })

/-- Ends an invocation with an outcome, unless an error escaped. -/
def settle (d : Dispatcher) (number : Nat) (route : Route) (id : String)
    (ended : Except Raised Outcome) (w : World) : Activity World (Except Raised Response) :=
  match ended with
  | .error e => .done w (.error e)
  | .ok outcome =>
    let (w, response) := d.conclude number route id outcome w
    .done w response

def reportDenial (d : Dispatcher) (number : Nat) (route : Route) (decision : Decision)
    (w : World) : World :=
  let w := w.audit d.hooks number (.anomaly "Permission denied" "WARNING"
    [(.text "route", .text route.text), (.text "reason", .text decision.reason)])
  w.measure d.hooks number ⟨.count, "denials_total", some (.int 1),
    [(.text "route", .text route.text)]⟩

/-- Ends an invocation whose limit has passed. -/
def timeOut (d : Dispatcher) (number : Nat) (route : Route) (id : String)
    (limit : Value) (w : World) : Activity World (Except Raised Response) :=
  let w := w.audit d.hooks number (.anomaly "Invocation timed out" "WARNING"
    [(.text "route", .text route.text), (.text "timeout_seconds", limit)])
  let fault : Fault :=
    .cancelled (.text ("Invocation timed out after " ++ limit.shown .empty ++ " seconds"))
      [(.text "timeout_seconds", limit)]
  d.settle number route id ((Failure.ofFault fault).raise.map (Outcome.failed · [])) w

/-- Runs a pipeline within the limit and answers the caller. -/
def runWithin (d : Dispatcher) (engine : Engine) (route : Route) (pipeline : Pipeline)
    (invocation : Invocation) (id : String) : World → Activity World (Except Raised Response) :=
  let number := invocation.number
  match d.timeout with
  | none =>
    fun w => (engine.run pipeline invocation w).bind fun w ended => d.settle number route id ended w
  | some limit =>
    -- The task of the run is given up before it begins.
    if hasPassed limit then
      Activity.later (Activity.later (Activity.later (d.timeOut number route id limit)))
    else
      Activity.later fun w =>
        (((engine.run pipeline invocation w).map some).limited fun w => .done w none).bind
          fun w ended =>
          match ended with
          | none => d.timeOut number route id limit w
          -- The handler hears of the end of the task two turns later.
          | some ended => Activity.later (Activity.later (d.settle number route id ended)) w

/-- Answers a request from a table. -/
def answer (d : Dispatcher) (table : ServedTable) (number : Nat) (request : Request)
    (id : String) (w : World) : Activity World (Except Raised Response) :=
  let route := request.route
  let w := w.audit d.hooks number (.identified id)
  match table.pipelines.find? route with
  | none =>
    d.settle number route id
      ((Failure.ofFault (.noRoute route.interface route.method)).raise.map (Outcome.failed · [])) w
  | some pipeline =>
    let claims := request.credentials.resolve
    let decision := table.gate.check route claims
    -- Nothing of the decision but its outcome reaches the caller.
    if !decision.allowed then
      d.settle number route id (.ok (.failed Failure.denial []))
        (d.reportDenial number route decision w)
    else
      d.runWithin ⟨table.pipelines, d.hooks⟩ route pipeline
        { number, input := request.input, claims, correlationId := some id,
          signal := request.signal } id w

/-- Handles a request. -/
def handle (d : Dispatcher) (request : Request) (service : Service) :
    Activity Service (Except Raised Response) :=
  let id := d.idOf service request
  let number := service.received
  -- The number is taken at once, so that requests in between get others.
  (d.answer service.current number request id service.world).within (·.world)
    (fun service world => { service with world }) { service with received := number + 1 }

/-- Handles requests that come in together. -/
def gather (d : Dispatcher) (requests : List Request) :
    Service → Activity Service (List (Except Raised Response)) :=
  Activity.gather (requests.map d.handle)

end Dispatcher

end Switchyard
