import Switchyard.Proofs.Activity.Pool
import Switchyard.Proofs.Dispatch.Course
import Switchyard.Units.Probe

/-!
# Isolation from reloads

A request is answered from the table that is current when it comes in. While it is handled others
may come in, other tables may be served and the world may change, in any order; none of that puts
another table in the place of its own.

That is shown by leaving the tables out: the requests in flight go as activities on the
world alone, each of them beginning with the table of its own that it is answered from, by
its gate and by its pipelines.

Main statement: `handle_isolated`.
-/

namespace Switchyard

/-! ## §1 Traffic -/

/-- What can happen while a dispatcher serves: a request comes in, a request in flight has its turn,
another table is served from now on, or the world changes by itself. -/
inductive Event
  | arrives (request : Request)
  | proceeds (place : Nat)
  | reloads (table : ServedTable)
  | stirs (change : World → World)

/-- The world in which routes that a unit withdrew are served again. -/
def World.restored (w : World) : World :=
  { w with surroundings := { w.surroundings with withdrawn := false } }

/-- A world in which no unit withdrew the routes is left alone. -/
theorem World.restored_of_served {w : World} (h : w.surroundings.withdrawn = false) :
    w.restored = w := by
  unfold restored
  rw [← h]

namespace Event

/-- The move that an event makes on a service and the requests in flight. -/
def move (d : Dispatcher) : Event → Move Service (Except Raised Response)
  | .arrives request => .enter (d.handle request)
  | .proceeds place => .resume place
  | .reloads table => .change (·.reload table)
  | .stirs change => .change fun service => { service with world := change service.world }

/-- The move that an event makes on the world alone, where no table is ever replaced: a
request comes with the table that it is answered from, and with the number and the
identifier that it gets. -/
def pinned (d : Dispatcher) (service : Service) : Event → Move World (Except Raised Response)
  | .arrives request =>
    .enter (d.answer service.current service.received request (d.idOf service request))
  | .proceeds place => .resume place
  | .reloads _ => .change World.restored
  | .stirs change => .change change

/-- The event without the table: a reload serves withdrawn routes again and changes nothing else. -/
def undone : Event → Event
  | .reloads _ => .stirs World.restored
  | event => event

/-- Whether another table is served from the event on. -/
def isReload : Event → Bool
  | .reloads _ => true
  | .arrives _ | .proceeds _ | .stirs _ => false

/-- No request comes in with the event. -/
def IsQuiet : Event → Prop
  | .arrives _ => False
  | .proceeds _ | .reloads _ | .stirs _ => True

/-- An event with which no request comes in makes the same move on the world,
whatever table is served. -/
theorem pinned_of_isQuiet {d : Dispatcher} {event : Event} (h : event.IsQuiet) (s t : Service) :
    event.pinned d s = event.pinned d t := by
  cases event with
  | arrives request => exact h.elim
  | proceeds place => rfl
  | reloads table => rfl
  | stirs change => rfl

/-- Without the table the event makes the same move on the world. -/
theorem pinned_undone {d : Dispatcher} {event : Event} {service : Service} :
    event.undone.pinned d service = event.pinned d service := by
  cases event <;> rfl

theorem IsQuiet.undone {event : Event} (h : event.IsQuiet) : event.undone.IsQuiet := by
  cases event <;> trivial

end Event

namespace Dispatcher

variable {d : Dispatcher} {service : Service}

/-- The service and the requests in flight after some events. -/
def traffic (d : Dispatcher) (service : Service) (events : List Event) :
    Pool Service (Except Raised Response) :=
  Pool.run ⟨service, []⟩ (events.map (Event.move d))

/-- The moves on the world alone that some events make. -/
def pinnedMoves (d : Dispatcher) (service : Service) (events : List Event) :
    List (Move World (Except Raised Response)) :=
  Pool.innerMoves (Event.move d) (Event.pinned d) ⟨service, []⟩ events

/-- The world and the requests in flight after some events, where no table is ever replaced. -/
def pinnedTraffic (d : Dispatcher) (service : Service) (events : List Event) :
    Pool World (Except Raised Response) :=
  Pool.run ⟨service.world, []⟩ (d.pinnedMoves service events)

/-- A service and the requests in flight act on the world as others do that have no service. -/
abbrev ActsAs (pool : Pool Service (Except Raised Response))
    (inner : Pool World (Except Raised Response)) : Prop :=
  Pool.Carries (·.world) (fun service world => { service with world }) pool inner

/-! ## §2 Tables left out -/

/-- **One event**: whatever is served, it acts on the world as it does where no
table is ever replaced. -/
theorem comesTo_pinned (service : Service) (event : Event) :
    Pool.ComesTo (·.world) (fun service world => { service with world }) service (event.move d)
      (event.pinned d service) := by
  cases event with
  -- Handling a request reads the service once, when it comes in; what follows acts on the world.
  | arrives request => exact .enter (u := { service with received := service.received + 1 }) rfl
  | proceeds place => exact .resume place
  | reloads table => exact .change rfl
  | stirs change => exact .change rfl

/-- **All events**: the traffic acts on the world as it does where no table is ever replaced. -/
theorem traffic_actsAs_pinned (d : Dispatcher) (service : Service) (events : List Event) :
    ActsAs (d.traffic service events) (d.pinnedTraffic service events) :=
  Pool.run_carries (fun _ _ => rfl) comesTo_pinned ⟨rfl, .nil⟩

theorem pinnedMoves_append {events more : List Event} :
    d.pinnedMoves service (events ++ more) = d.pinnedMoves service events ++
      Pool.innerMoves (Event.move d) (Event.pinned d) (d.traffic service events) more :=
  Pool.innerMoves_append

/-- While no request comes in, the moves on the world are those of the events,
whatever table is served. -/
theorem pinnedTraffic_quiet {events later : List Event} (hquiet : ∀ event ∈ later, event.IsQuiet) :
    d.pinnedTraffic service (events ++ later) =
      (d.pinnedTraffic service events).run (later.map (Event.pinned d service)) := by
  have hlater : ∀ event ∈ later, ∀ t, event.pinned d t = event.pinned d service := by
    intro event hevent t
    exact Event.pinned_of_isQuiet (hquiet event hevent) t service
  unfold pinnedTraffic
  rw [pinnedMoves_append, Pool.innerMoves_eq_map hlater, Pool.run_append]

/-- Reloads while no request comes in make no difference to the world and the requests in flight,
but that routes which a unit withdrew are served again. -/
theorem pinnedTraffic_undone {events later : List Event} (hquiet : ∀ event ∈ later, event.IsQuiet) :
    d.pinnedTraffic service (events ++ later.map Event.undone) =
      d.pinnedTraffic service (events ++ later) := by
  have hundone : ∀ event ∈ later.map Event.undone, event.IsQuiet := by
    intro event hevent
    obtain ⟨original, horiginal, rfl⟩ := List.mem_map.mp hevent
    exact (hquiet original horiginal).undone
  rw [pinnedTraffic_quiet hquiet, pinnedTraffic_quiet hundone, List.map_map]
  -- Event by event the moves on the world are the same.
  congr 1
  exact List.map_congr_left fun event _ => Event.pinned_undone

/-- Moves of reloads that find no routes withdrawn can be left out. -/
theorem run_pinned_filter {pool : Pool World (Except Raised Response)} {later : List Event}
    (hserved : ∀ pre table post, later = pre ++ .reloads table :: post →
      (pool.run (pre.map (Event.pinned d service))).state.surroundings.withdrawn = false) :
    pool.run ((later.filter fun event => !event.isReload).map (Event.pinned d service)) =
      pool.run (later.map (Event.pinned d service)) := by
  induction later generalizing pool with
  | nil => rfl
  | cons event rest ih =>
    have hrest : ∀ pre table post, rest = pre ++ .reloads table :: post →
        ((pool.step (event.pinned d service)).run
          (pre.map (Event.pinned d service))).state.surroundings.withdrawn =
          false := by
      intro pre table post hsplit
      exact hserved (event :: pre) table post (by rw [hsplit, List.cons_append])
    rw [List.map_cons, Pool.run_cons, ← ih hrest]
    cases event with
    | reloads table =>
      -- The world is left as it is.
      have hpresent : pool.state.surroundings.withdrawn = false := hserved [] table rest rfl
      have hsame : pool.step (Event.pinned d service (.reloads table)) = pool := by
        show { pool with state := pool.state.restored } = pool
        rw [World.restored_of_served hpresent]
      rw [hsame]
      rfl
    | arrives request => rfl
    | proceeds place => rfl
    | stirs change => rfl

/-- Reloads while no request comes in and no routes are withdrawn make no difference to the world
and the requests in flight. -/
theorem pinnedTraffic_dropped {events later : List Event} (hquiet : ∀ event ∈ later, event.IsQuiet)
    (hserved : ∀ pre table post, later = pre ++ .reloads table :: post →
      (d.traffic service (events ++ pre)).state.world.surroundings.withdrawn = false) :
    d.pinnedTraffic service (events ++ later.filter fun event => !event.isReload) =
      d.pinnedTraffic service (events ++ later) := by
  have hdropped : ∀ event ∈ later.filter fun event => !event.isReload, event.IsQuiet := by
    intro event hevent
    exact hquiet event (List.mem_of_mem_filter hevent)
  rw [pinnedTraffic_quiet hquiet, pinnedTraffic_quiet hdropped]
  apply run_pinned_filter
  intro pre table post hsplit
  have hpre : ∀ event ∈ pre, event.IsQuiet := by
    intro event hevent
    exact hquiet event (hsplit ▸ List.mem_append_left _ hevent)
  rw [← pinnedTraffic_quiet hpre, ← (traffic_actsAs_pinned d service (events ++ pre)).state]
  exact hserved pre table post hsplit

/-! ## §3 Isolation -/

/-- A request in flight goes on from the state in which it came in, on the world alone. -/
theorem pinned_flight (d : Dispatcher) (service : Service) (before after : List Event)
    (request : Request) :
    ∃ worlds, (d.pinnedTraffic service (before ++ .arrives request :: after)).flights[
        (d.traffic service before).flights.length]? =
      some ((d.answer (d.traffic service before).state.current
        (d.traffic service before).state.received request
        (d.idOf (d.traffic service before).state request)
          (d.traffic service before).state.world).after worlds) := by
  have hbefore : ActsAs (d.traffic service before) (d.pinnedTraffic service before) :=
    traffic_actsAs_pinned d service before
  unfold pinnedTraffic
  rw [pinnedMoves_append, Pool.run_append, Pool.innerMoves, Pool.run_cons]
  -- The request comes in behind those that are in flight already, in the present world.
  apply Pool.exists_after_run
  have hlength : (d.traffic service before).flights.length =
      (d.pinnedTraffic service before).flights.length :=
    hbefore.flights.length_eq
  have hworld : (d.traffic service before).state.world = (d.pinnedTraffic service before).state :=
    hbefore.state
  rw [hlength, hworld]
  exact List.getElem?_concat_length

/-- Traffics that act as one and the same on the world have the same results in the same world. -/
theorem ActsAs.same {pool other : Pool Service (Except Raised Response)}
    {inner : Pool World (Except Raised Response)} (h : ActsAs pool inner)
    (hother : ActsAs other inner) :
    pool.results = other.results ∧ pool.state.world = other.state.world :=
  ⟨h.results_eq.trans hother.results_eq.symm, h.state.trans hother.state.symm⟩

/-- **Isolation**: whatever happens before and after, in whatever order, a request is answered from
the table that is current when it comes in. It is in flight as an activity of that table alone, on
the worlds that it meets: the gate of that table decides about it, and if it is allowed its pipeline
and the units of its steps are those of that table. All that happens to the world and all results
are as they are where no table is ever replaced and every request brings its own. If no further
request comes in, they are the same with all reloads undone, that is up to serving again what a unit
withdrew; and they are the same without the reloads if nothing was withdrawn. -/
theorem handle_isolated (d : Dispatcher) (service : Service) (before after : List Event)
    (request : Request) :
    let start := (d.traffic service before).state
    let events := before ++ .arrives request :: after
    (∃ worlds t, (d.traffic service events).flights[(d.traffic service before).flights.length]? =
      some (((d.answer start.current start.received request
        (d.idOf start request) start.world).after worlds).within
        (·.world) (fun service world => { service with world }) t)) ∧
    (∀ pipeline, start.current.pipelines.find? request.route = some pipeline →
      (start.current.gate.check request.route request.credentials.resolve).allowed = true →
        d.answer start.current start.received request (d.idOf start request) start.world =
          d.runWithin ⟨start.current.pipelines, d.hooks⟩ request.route pipeline
            (d.invocationOf start request) (d.idOf start request) (d.welcome start request)) ∧
    ActsAs (d.traffic service events) (d.pinnedTraffic service events) ∧
    ((∀ event ∈ after, event.IsQuiet) →
      let undone := d.traffic service (before ++ .arrives request :: after.map Event.undone)
      let dropped :=
        d.traffic service (before ++ .arrives request :: after.filter fun event => !event.isReload)
      ((d.traffic service events).results = undone.results ∧
        (d.traffic service events).state.world = undone.state.world) ∧
      ((∀ pre table post, after = pre ++ .reloads table :: post →
          (d.traffic service (before ++
            .arrives request :: pre)).state.world.surroundings.withdrawn = false) →
        (d.traffic service events).results = dropped.results ∧
          (d.traffic service events).state.world = dropped.state.world)) := by
  intro start events
  have hacts : ∀ rest, ActsAs (d.traffic service (before ++ .arrives request :: rest))
      (d.pinnedTraffic service (before ++ .arrives request :: rest)) :=
    fun rest => traffic_actsAs_pinned d service _
  have hsplit : ∀ rest, before ++ .arrives request :: rest =
      (before ++ [.arrives request]) ++ rest := by
    intro rest
    rw [List.append_assoc, List.singleton_append]
  refine ⟨?_, ?_, hacts after, ?_⟩
  · obtain ⟨worlds, hflight⟩ := pinned_flight d service before after request
    obtain ⟨t, hsame⟩ := (hacts after).getElem? hflight
    exact ⟨worlds, t, hsame⟩
  · intro pipeline hpipeline hallowed
    exact answer_of_allowed hpipeline hallowed
  · intro hquiet undone dropped
    -- Without the reloads the traffic acts on the world as the same one does.
    refine ⟨?_, ?_⟩
    · have hundone : ActsAs undone (d.pinnedTraffic service events) := by
        show ActsAs undone (d.pinnedTraffic service (before ++ .arrives request :: after))
        rw [hsplit after, ← pinnedTraffic_undone hquiet, ← hsplit]
        exact hacts _
      exact (hacts after).same hundone
    · intro hserved
      have hdropped : ActsAs dropped (d.pinnedTraffic service events) := by
        show ActsAs dropped (d.pinnedTraffic service (before ++ .arrives request :: after))
        have hserved' : ∀ pre table post, after = pre ++ .reloads table :: post →
            (d.traffic service ((before ++ [.arrives request]) ++
              pre)).state.world.surroundings.withdrawn = false := by
          intro pre table post hpre
          rw [← hsplit]
          exact hserved pre table post hpre
        rw [hsplit after, ← pinnedTraffic_dropped hquiet hserved', ← hsplit]
        exact hacts _
      exact (hacts after).same hdropped

/-- A service with one route, whose only step suspends itself before it answers. -/
def slowService : Service where
  table :=
    { pipelines :=
        { pipelines := .ofList [(⟨"desk", "slow"⟩,
            { route := ⟨"desk", "slow"⟩
              steps := [⟨"first", "async_echo", [("value", .literal (.text "answer"))], ""⟩] })]
          units := [("async_echo", some (Units.probe "async_echo" (Units.suspending Units.echo)))] }
      gate := .ofEntries [(⟨"desk", "slow"⟩, .everyone)] }

/-- A dispatcher without a limit. -/
def slowDispatcher : Dispatcher where
  newId := fun _ => "id"

/-- What isolation comes to for a request that is suspended while the route is taken away: it is
answered all the same, as it is without the reload. -/
theorem handle_isolated_at_slow :
    (slowDispatcher.traffic slowService ([] ++ .arrives { route := ⟨"desk", "slow"⟩ } ::
        [.reloads .empty, .proceeds 0])).results =
      (slowDispatcher.traffic slowService
        ([] ++ .arrives { route := ⟨"desk", "slow"⟩ } :: [.proceeds 0])).results ∧
    (slowDispatcher.traffic slowService ([] ++ .arrives { route := ⟨"desk", "slow"⟩ } ::
        [.reloads .empty, .proceeds 0])).results =
      [some (.ok { outcome := .success (.text "answer") [("first", .text "answer")],
                   correlationId := some "id" })] := by
  have hquiet : ∀ event ∈ [Event.reloads .empty, .proceeds 0], event.IsQuiet := by
    simp [Event.IsQuiet]
  have hserved : ∀ pre table post, [Event.reloads .empty, .proceeds 0] =
      pre ++ .reloads table :: post →
      (slowDispatcher.traffic slowService ([] ++ .arrives { route := ⟨"desk", "slow"⟩ } ::
        pre)).state.world.surroundings.withdrawn = false := by
    intro pre table post hpre
    -- Only the first event is a reload.
    match pre, hpre with
    | [], _ => rfl
    | [_], hpre => cases hpre
    | _ :: _ :: _, hpre => simp at hpre
  refine ⟨?_, rfl⟩
  exact (((handle_isolated slowDispatcher slowService [] [.reloads .empty, .proceeds 0]
    { route := ⟨"desk", "slow"⟩ }).2.2.2 hquiet).2 hserved).1

end Dispatcher

end Switchyard
