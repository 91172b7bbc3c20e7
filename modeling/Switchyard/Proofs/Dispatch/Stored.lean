import Switchyard.Proofs.Dispatch.Course
import Switchyard.Proofs.Engine.Stored

/-!
# Requests for stored configuration

A dispatcher whose table is kept in the store of its units answers as any other one, except that it
reads each step when that is due. Where units keep no state of their own, the same request is then
answered the same wherever the table is kept, and nothing that the caller is told leads back to it.

Main statements: a dispatcher with a plain table answers as it does (`handleStored_of_plain`), what
a request comes to that is handled alone (`finish_answerBy_of_allowed`), and the same request in two
places is answered the same (`handleStored_same`).
-/

namespace Switchyard

open Store (Pairing)
open Surroundings (GoAlike StopAlike)

/-! ## §1 Dispatchers and the way in which pipelines are run -/

/-- A way to run pipelines. -/
abbrev Runner := Pipeline → Invocation → World → Activity World (Except Raised Outcome)

namespace Dispatcher

/-- Runs a pipeline within the limit, in whichever way pipelines are run. -/
def runWithinBy (d : Dispatcher) (run : Runner) (route : Route) (pipeline : Pipeline)
    (invocation : Invocation) (id : String) : World → Activity World (Except Raised Response) :=
  let number := invocation.number
  match d.timeout with
  | none =>
    fun w => (run pipeline invocation w).bind fun w ended => d.settle number route id ended w
  | some limit =>
    if hasPassed limit then
      Activity.later (Activity.later (Activity.later (d.timeOut number route id limit)))
    else
      Activity.later fun w =>
        (((run pipeline invocation w).map some).limited fun w => .done w none).bind fun w ended =>
          match ended with
          | none => d.timeOut number route id limit w
          | some ended => Activity.later (Activity.later (d.settle number route id ended)) w

def answerBy (d : Dispatcher) (run : Runner) (table : ServedTable) (number : Nat)
    (request : Request) (id : String) (w : World) : Activity World (Except Raised Response) :=
  let route := request.route
  let w := w.audit d.hooks number (.identified id)
  match table.pipelines.find? route with
  | none =>
    d.settle number route id
      ((Failure.ofFault (.noRoute route.interface route.method)).raise.map (Outcome.failed · [])) w
  | some pipeline =>
    let claims := request.credentials.resolve
    let decision := table.gate.check route claims
    if !decision.allowed then
      d.settle number route id (.ok (.failed Failure.denial []))
        (d.reportDenial number route decision w)
    else
      d.runWithinBy run route pipeline
        { number, input := request.input, claims, correlationId := some id,
          signal := request.signal } id w

/-- Handles a request, in whichever way the pipelines of the current table are run. -/
def handleBy (d : Dispatcher) (runner : ServedTable → Runner) (request : Request)
    (service : Service) : Activity Service (Except Raised Response) :=
  let id := d.idOf service request
  let number := service.received
  (d.answerBy (runner service.current) service.current number request id service.world).within
    (·.world) (fun service world => { service with world }) { service with received := number + 1 }

/-- Pipelines run as they stand make a dispatcher as it is. -/
theorem handleBy_run (d : Dispatcher) :
    d.handleBy (fun table => Engine.run ⟨table.pipelines, d.hooks⟩) = d.handle := rfl

/-- **Handles a request for a table that is kept in the store.** -/
def handleStored (d : Dispatcher) : Request → Service → Activity Service (Except Raised Response) :=
  d.handleBy fun table => Engine.runStored ⟨table.pipelines, d.hooks⟩

variable {d d' : Dispatcher} {run run' : Runner} {table stored stored' : ServedTable}
  {route : Route} {pipeline pipeline' : Pipeline} {invocation invocation' : Invocation}
  {number : Nat} {id : String} {w w' : World} {request request' : Request}
  {service service' : Service} {r : Nat → Nat → Prop} {base base' : Store}

/-! ## §2 Requests that are handled alone -/

/-- What the run of a pipeline comes to alone within the limit: nothing if the limit passes. -/
def aloneWithin (d : Dispatcher) (run : World → Activity World (Except Raised Outcome))
    (w : World) : World × Option (Except Raised Outcome) :=
  match d.timeout with
  | none => (run w).stop true
  | some limit => if hasPassed limit then (w, none) else (run w).stop false

theorem finish_settle (d : Dispatcher) (number : Nat) (route : Route) (id : String)
    (ended : Except Raised Outcome) (w : World) : World.seen
      (d.settle number route id ended w).finish = (w.surroundings, d.answered id (some ended)) := by
  cases ended with
  | error e => rfl
  | ok outcome => simp [settle, conclude, World.seen, answered, Activity.finish, Except.map]

theorem finish_timeOut {limit : Value} (hlimit : d.timeout = some limit) :
    World.seen (d.timeOut number route id limit w).finish =
      (w.surroundings, d.answered id none) := by
  simp only [timeOut, ofFault_timeOut, Checked.raise, finish_settle, World.audit_surroundings]
  simp [answered, hlimit, Except.map]

/-- **A run within the limit** leaves what it comes to alone, and is answered with that. -/
theorem finish_runWithinBy (d : Dispatcher) (run : Runner) (route : Route) (pipeline : Pipeline)
    (invocation : Invocation) (id : String) (w : World) :
    World.seen (d.runWithinBy run route pipeline invocation id w).finish =
      let alone := d.aloneWithin (run pipeline invocation) w
      (alone.1.surroundings, d.answered id alone.2) := by
  unfold runWithinBy aloneWithin
  cases hlimit : d.timeout with
  | none =>
    simp only [Activity.finish_bind, finish_settle, Activity.stop_true]
  | some limit =>
    cases hpassed : hasPassed limit with
    | true =>
      simp only [hpassed, ↓reduceIte]
      exact finish_timeOut hlimit
    | false =>
      simp only [hpassed, Bool.false_eq_true, ↓reduceIte]
      -- Alone, a run with a limit goes on up to its first wait.
      have hlimited := Activity.stop_limited (run pipeline invocation w)
      rw [Activity.stop_true] at hlimited
      obtain ⟨hstate, hended⟩ := Prod.mk.inj hlimited
      rw [Activity.later, Activity.finish, Activity.finish_bind, hstate, Option.some.inj hended]
      cases ((run pipeline invocation w).stop false).2 with
      | none => exact finish_timeOut hlimit
      | some ended => exact finish_settle d _ _ _ ended _

/-- The invocation that a request makes under a number and an identifier. -/
def invocationBy (number : Nat) (request : Request) (id : String) : Invocation where
  number
  input := request.input
  claims := request.credentials.resolve
  correlationId := some id
  signal := request.signal

theorem finish_answerBy_of_unserved (h : table.pipelines.find? request.route = none) :
    World.seen (d.answerBy run table number request id w).finish =
      (w.surroundings, .ok { outcome := .failed (absence request.route) [],
                             correlationId := some id }) := by
  simp only [answerBy, h]
  rw [finish_settle, World.audit_surroundings]
  rfl

theorem finish_answerBy_of_denied (h : table.pipelines.find? request.route = some pipeline)
    (hdenied : (table.gate.check request.route request.credentials.resolve).allowed = false) :
    World.seen (d.answerBy run table number request id w).finish =
      (w.surroundings, .ok { outcome := .failed Failure.denial [], correlationId := some id }) := by
  simp only [answerBy, h, hdenied, Bool.not_false, ↓reduceIte]
  rw [finish_settle, reportDenial, World.measure_surroundings, World.audit_surroundings,
    World.audit_surroundings]
  rfl

/-- **Past the gate** a request that is handled alone comes to what its run comes
to within the limit. -/
theorem finish_answerBy_of_allowed (h : table.pipelines.find? request.route = some pipeline)
    (hallowed : (table.gate.check request.route request.credentials.resolve).allowed = true) :
    World.seen (d.answerBy run table number request id w).finish =
      let alone := d.aloneWithin (run pipeline (invocationBy number request id))
          (w.audit d.hooks number (.identified id))
      (alone.1.surroundings, d.answered id alone.2) := by
  simp only [answerBy, h, hallowed, Bool.not_true, Bool.false_eq_true, ↓reduceIte]
  exact finish_runWithinBy d run request.route pipeline (invocationBy number request id) id _

/-- **A request that is handled alone** takes a number, and leaves the world
that its answer leaves. -/
theorem finish_handleBy (d : Dispatcher) (runner : ServedTable → Runner) (request : Request)
    (service : Service) : (d.handleBy runner request service).finish =
      let answer := (d.answerBy (runner service.current) service.current service.received request
          (d.idOf service request)
        service.world).finish
      ({ service with received := service.received + 1, world := answer.1 }, answer.2) := by
  unfold handleBy
  rw [Activity.finish_within]
  · exact fun _ _ => rfl
  · exact fun _ _ _ => rfl

/-! ## §3 Plain tables -/

/-- Only the pipeline that a request asks for is run. -/
theorem answerBy_congr (h : ∀ pipeline, table.pipelines.find? request.route = some pipeline →
    run pipeline = run' pipeline) : d.answerBy run table number request id w =
      d.answerBy run' table number request id w := by
  cases hfind : table.pipelines.find? request.route with
  | none => simp only [answerBy, hfind]
  | some pipeline => simp only [answerBy, runWithinBy, hfind, h pipeline hfind]

/-- **A plain table** is served as it stands. -/
theorem handleStored_of_plain (h : service.current.IsPlain) :
    d.handleStored request service = d.handle request service := by
  have hanswer : d.answerBy (Engine.runStored ⟨service.current.pipelines, d.hooks⟩) service.current
        service.received request (d.idOf service request) service.world =
      d.answerBy (Engine.run ⟨service.current.pipelines, d.hooks⟩) service.current
        service.received request (d.idOf service request) service.world :=
    answerBy_congr fun pipeline hfind => Engine.runStored_of_plain (h.of_find? hfind)
  rw [handleStored, ← handleBy_run]
  simp only [handleBy, hanswer]

/-! ## §4 The same request in two places -/

end Dispatcher

/-- **The same request**, up to where its data is kept. -/
structure Request.Matches (r : Nat → Nat → Prop) (request request' : Request) : Prop where
  route : request.route = request'.route
  input : request.input.Matches r request'.input
  claims : Option.Rel (Claims.Matches r) request.credentials.resolve request'.credentials.resolve

/-- **The same response**, up to where its data is kept. -/
structure Response.Matches (r : Nat → Nat → Prop) (response response' : Response) : Prop where
  outcome : response.outcome.Matches r response'.outcome
  correlationId : response.correlationId = response'.correlationId

/-- **Activities that end alike** in two places. -/
def Surroundings.EndAlike {α : Type} (signal signal' : Option Nat)
    (p : (Nat → Nat → Prop) → α → α → Prop) (s t : Surroundings) (r : Nat → Nat → Prop)
    (x y : Surroundings × α) : Prop :=
  ∃ r', GoAlike signal signal' s t r x.1 y.1 r' ∧ p r' x.2 y.2

/-- What hooks are told, and how many requests have come in, does not show. -/
def Service.seen {α : Type} (x : Service × α) : Surroundings × α := (x.1.world.surroundings, x.2)

/-- The gate goes by who the caller is and what the caller may do, wherever else
the claims are kept. -/
theorem Gate.check_eq {r : Nat → Nat → Prop} (gate : Gate) (route : Route)
    {claims claims' : Option Claims} (h : Option.Rel (Claims.Matches r) claims claims') :
    gate.check route claims = gate.check route claims' := by
  cases h with
  | none => rfl
  | @some claims claims' h =>
    obtain ⟨subject, permissions, roles, attributes⟩ := claims
    obtain ⟨subject', permissions', roles', attributes'⟩ := claims'
    obtain ⟨rfl, rfl, rfl, -⟩ := h
    rfl

/-- **A table whose units keep no state of their own.** -/
def ServedTable.KeepsNoState (table : ServedTable) : Prop :=
  ∀ entry ∈ table.pipelines.pipelines, ∀ step ∈ entry.2.steps,
    (Engine.mk table.pipelines {}).KeepsNoState step

namespace Dispatcher

variable {d d' : Dispatcher} {run run' : World → Activity World (Except Raised Outcome)}
  {table stored stored' : ServedTable} {number number' : Nat} {id : String} {w w' : World}
  {request request' : Request} {service service' : Service} {r : Nat → Nat → Prop}
  {base base' : Store} {signal signal' : Option Nat}

open Surroundings (EndAlike)
open Engine (Linked)

/-- **A dispatcher whose limit is no container**: none, or a number. -/
def LimitIsPlain (d : Dispatcher) : Prop := ∀ limit, d.timeout = some limit → limit.Within 0

/-- Runs that come to the same are within the limit together. -/
theorem aloneWithin_same (htimeout : d'.timeout = d.timeout)
    (hstill : GoAlike signal signal' w.surroundings w'.surroundings r w.surroundings
      w'.surroundings r)
    (hrun : ∀ off, StopAlike signal signal'
      (fun r => Reply.Matches r (Outcome.Matches r)) w.surroundings w'.surroundings r
      (World.seen ((run w).stop off)) (World.seen ((run' w').stop off))) :
    StopAlike signal signal' (fun r => Reply.Matches r (Outcome.Matches r)) w.surroundings
      w'.surroundings r (World.seen (d.aloneWithin run w))
        (World.seen (d'.aloneWithin run' w')) := by
  unfold aloneWithin
  rw [htimeout]
  cases d.timeout with
  | none => exact hrun true
  | some limit =>
    dsimp only
    split_ifs
    · exact ⟨r, hstill, .none⟩
    · exact hrun false

/-- **The run of a pipeline** comes to the same within the limit, wherever its literals are kept. -/
theorem aloneWithin_runStored {pipeline pipeline' configured : Pipeline}
    {table table' : PipelineTable} (hread : ∀ σ, base.Extends σ → pipeline.read σ = configured)
    (hread' : ∀ σ, base'.Extends σ → pipeline'.read σ = configured) (hplain : configured.IsPlain)
    (hunits : ∀ step ∈ configured.steps, (Engine.mk table d.hooks).KeepsNoState step)
    (hwork : ∀ step, (Engine.mk table' d'.hooks).work step = (Engine.mk table d.hooks).work step)
    (htimeout : d'.timeout = d.timeout)
    (h : Linked base base' request.signal request'.signal w.surroundings w'.surroundings r)
    (hsame : request.Matches r request') :
    StopAlike request.signal request'.signal
      (fun r => Reply.Matches r (Outcome.Matches r)) w.surroundings w'.surroundings r
      (World.seen (d.aloneWithin
        (Engine.runStored ⟨table, d.hooks⟩ pipeline (invocationBy number request id)) w))
      (World.seen (d'.aloneWithin (Engine.runStored ⟨table', d'.hooks⟩ pipeline'
        (invocationBy number' request' id)) w')) := by
  have houtput : pipeline.output = pipeline'.output :=
    (congrArg Pipeline.output (hread base (.refl _))).trans
      (congrArg Pipeline.output (hread' base' (.refl _))).symm
  have hinvocation : Engine.SameInvocation r (invocationBy number request id)
      (invocationBy number' request' id) :=
    ⟨hsame.input, hsame.claims, rfl⟩
  exact aloneWithin_same htimeout (.still h.pairing h.given) fun _ =>
    Engine.runStored_same (fun σ hσ => congrArg Pipeline.steps (hread σ hσ))
      (fun σ hσ => congrArg Pipeline.steps (hread' σ hσ)) hplain hunits hwork houtput h hinvocation

/-- A failure that is told without a run is the same everywhere. -/
theorem told_matches {failure : Failure} (h : ∀ entry ∈ failure.details, entry.2.Within 0) :
    Response.Matches r { outcome := .failed failure [], correlationId := some id }
      { outcome := .failed failure [], correlationId := some id } :=
  ⟨.failed (Failure.matches_self h) rfl .nil, rfl⟩

/-- What comes to the same is answered the same. -/
theorem answered_matches (htimeout : d'.timeout = d.timeout) (hlimit : d.LimitIsPlain)
    {ended ended' : Option (Except Raised Outcome)}
    (h : Option.Rel (Reply.Matches r (Outcome.Matches r)) ended ended') :
    Reply.Matches r (Response.Matches r) (d.answered id ended) (d'.answered id ended') := by
  cases h with
  | some h =>
    cases h with
    | ok h => exact .ok ⟨h, rfl⟩
    | error he => exact .error he
  | none =>
    have hplain : (d.timeout.getD .null).Within 0 := by
      cases hset : d.timeout with
      | none => exact .atom _
      | some limit => exact hlimit limit hset
    simp only [answered, htimeout]
    exact .ok (told_matches (List.forall_mem_singleton.mpr hplain))

/-- **The same request is answered the same** by tables that are kept in two places. -/
theorem answerBy_same (hstored : stored.StoredAs base table)
    (hstored' : stored'.StoredAs base' table) (hplain : table.IsPlain) (hunits : table.KeepsNoState)
    (htimeout : d'.timeout = d.timeout) (hlimit : d.LimitIsPlain)
    (h : Linked base base' request.signal request'.signal w.surroundings w'.surroundings r)
    (hsame : request.Matches r request') :
    EndAlike request.signal request'.signal
      (fun r => Reply.Matches r (Response.Matches r)) w.surroundings w'.surroundings r
      (World.seen (d.answerBy (Engine.runStored ⟨stored.pipelines, d.hooks⟩) stored number
        request id w).finish)
      (World.seen (d'.answerBy (Engine.runStored ⟨stored'.pipelines, d'.hooks⟩) stored' number'
        request' id w').finish) := by
  have hstill : GoAlike request.signal request'.signal w.surroundings w'.surroundings r
      w.surroundings w'.surroundings r :=
    .still h.pairing h.given
  have hgate : stored'.gate.check request'.route request'.credentials.resolve =
      stored.gate.check request.route request.credentials.resolve := by
    rw [hstored'.gate_eq, hstored.gate_eq, ← hsame.route, Gate.check_eq _ _ hsame.claims]
  have hfound := hstored.rel_find? request.route
  have hfound' := hstored'.rel_find? request'.route
  generalize hx : stored.pipelines.find? request.route = x at hfound
  generalize hy : stored'.pipelines.find? request'.route = y at hfound'
  rw [← hsame.route] at hfound'
  generalize hz : table.pipelines.find? request.route = z at hfound hfound'
  cases hfound with
  | none =>
    cases hfound'
    rw [finish_answerBy_of_unserved hx, finish_answerBy_of_unserved hy, ← hsame.route]
    exact ⟨r, hstill, .ok (told_matches nofun)⟩
  | @some pipeline configured hread =>
    cases hfound' with
    | @some pipeline' _ hread' =>
      cases hallowed : (stored.gate.check request.route request.credentials.resolve).allowed with
      | false =>
        rw [finish_answerBy_of_denied hx hallowed, finish_answerBy_of_denied hy (hgate ▸ hallowed)]
        exact ⟨r, hstill, .ok (told_matches nofun)⟩
      | true =>
        rw [finish_answerBy_of_allowed hx hallowed,
          finish_answerBy_of_allowed hy (hgate ▸ hallowed)]
        have hwelcome : Linked base base' request.signal request'.signal
            (w.audit d.hooks number (.identified id)).surroundings
            (w'.audit d'.hooks number' (.identified id)).surroundings r := by
          rw [World.audit_surroundings, World.audit_surroundings]
          exact h
        obtain ⟨entry, hentry, rfl⟩ := ServedTable.exists_entry_of_find? hz
        obtain ⟨r', hgo, hended⟩ := aloneWithin_runStored hread hread' (hplain entry hentry)
          (fun step hstep => (hunits entry hentry step hstep).of_units hstored.units_eq)
          (Engine.work_eq (hstored'.units_eq.trans hstored.units_eq.symm)) htimeout hwelcome hsame
        rw [World.audit_surroundings, World.audit_surroundings] at hgo
        exact ⟨r', hgo, answered_matches htimeout hlimit hended⟩

/-- **A request that is handled alone** leaves the table as it is, and has taken a number. -/
theorem finish_handleStored_table (d : Dispatcher) (request : Request) (service : Service) :
    (d.handleStored request service).finish.1.table = service.table ∧
      (d.handleStored request service).finish.1.received = service.received + 1 := by
  rw [handleStored, finish_handleBy]
  exact ⟨rfl, rfl⟩

/-- **The same request under the same identifier is answered the same**,
wherever the table is kept. -/
theorem handleStored_same (hstored : service.current.StoredAs base table)
    (hstored' : service'.current.StoredAs base' table) (hplain : table.IsPlain)
    (hunits : table.KeepsNoState) (htimeout : d'.timeout = d.timeout) (hlimit : d.LimitIsPlain)
    (hid : d'.idOf service' request' = d.idOf service request)
    (h : Linked base base' request.signal request'.signal service.world.surroundings
      service'.world.surroundings r)
    (hsame : request.Matches r request') :
    EndAlike request.signal request'.signal
      (fun r => Reply.Matches r (Response.Matches r)) service.world.surroundings
      service'.world.surroundings r (Service.seen (d.handleStored request service).finish)
      (Service.seen (d'.handleStored request' service').finish) := by
  rw [handleStored, handleStored, finish_handleBy, finish_handleBy, hid]
  exact answerBy_same hstored hstored' hplain hunits htimeout hlimit h hsame

end Dispatcher

end Switchyard
