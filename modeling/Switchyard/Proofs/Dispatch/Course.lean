import Switchyard.Dispatcher
import Switchyard.Proofs.Activity.Ends
import Switchyard.Proofs.Engine.Frame
import Switchyard.Proofs.Failure.Telling

/-!
# The course of a request

How a request is handled from the moment at which it comes in: a route that is not served and a
caller who is denied are answered at once; any other request is answered with what its run ends
with, unless the limit of the dispatcher passes first.

Main statements: the three ways of handling a request (`handle_of_unserved`, `handle_of_denied`,
`handle_ends_iff_of_allowed`).
-/

namespace Switchyard.Dispatcher

/-! ## §1 What a request comes with -/

/-- The engine that runs the pipelines of a service. -/
def engineOf (d : Dispatcher) (service : Service) : Engine := ⟨service.current.pipelines, d.hooks⟩

/-- The invocation that a request makes. -/
def invocationOf (d : Dispatcher) (service : Service) (request : Request) : Invocation where
  number := service.received
  input := request.input
  claims := request.credentials.resolve
  correlationId := some (d.idOf service request)
  signal := request.signal

/-- The world after the hooks were told that a request came in. -/
def welcome (d : Dispatcher) (service : Service) (request : Request) : World :=
  service.world.audit d.hooks service.received (.identified (d.idOf service request))

/-- The pipeline that a request asks for. -/
def asksFor (service : Service) (request : Request) : Option Pipeline :=
  service.current.pipelines.find? request.route

/-- What the gate decides about a request. -/
def decides (service : Service) (request : Request) : Decision :=
  service.current.gate.check request.route request.credentials.resolve

/-! ## §2 Courses -/

/-- **How a run goes within the limit**, from the world `w`: the worlds in which it is resumed, the
one that it leaves, and what it ends with, which is nothing if the limit has passed. -/
inductive Course (d : Dispatcher) (run : World → Activity World (Except Raised Outcome))
    (off : Bool) (w : World) : List World → World → Option (Except Raised Outcome) → Prop
  /-- Without a limit the run goes as it goes. -/
  | unlimited {ts : List World} {u : World} {ended : Except Raised Outcome} :
      d.timeout = none → (run w).Ends off ts u ended → Course d run off w ts u (some ended)
  /-- A limit that has passed from the start leaves no time for the run. -/
  | passed {limit : Value} {t₁ t₂ t₃ : World} :
      d.timeout = some limit → hasPassed limit = true → Course d run off w [t₁, t₂, t₃] t₃ none
  /-- The run ends without a wait. -/
  | inTime {limit : Value} {t v t₁ t₂ : World} {during : List World}
      {ended : Except Raised Outcome} :
      d.timeout = some limit → hasPassed limit = false → (run t).Ends false during v ended →
        Course d run off w (t :: during ++ [t₁, t₂]) t₂ (some ended)
  /-- The run waits until the limit has passed. -/
  | expired {limit : Value} {t t' : World} {during : List World} :
      d.timeout = some limit → hasPassed limit = false → off = true → (run t).Waits during →
        Course d run off w (t :: during ++ [t']) t' none

/-- The failure of a request for a route that is not served. -/
def absence (route : Route) : Failure where
  kind := .routeNotFound
  message := "No route registered for " ++ route.interface ++ "::" ++ route.method

/-- The failure of a run whose limit has passed. -/
def lateness (limit : Value) : Failure where
  kind := .cancelled
  message := "Invocation timed out after " ++ limit.shown .empty ++ " seconds"
  details := [(.text "timeout_seconds", limit)]

/-- **What the caller is answered**: what the run ended with under the identifier of the request, or
that the limit has passed. -/
def answered (d : Dispatcher) (id : String) :
    Option (Except Raised Outcome) → Except Raised Response
  | some ended => ended.map fun outcome => { outcome, correlationId := some id }
  | none =>
    .ok { outcome := .failed (lateness (d.timeout.getD .null)) [], correlationId := some id }

/-! ## §3 The end of a request -/

variable {d : Dispatcher} {service : Service} {request : Request} {number : Nat}
  {route : Route} {id : String} {off : Bool} {ts : List World} {w u : World}
  {r : Except Raised Response}

/-- Settling an invocation answers the caller at once. -/
theorem settle_ends_iff {ended : Except Raised Outcome} :
    (∃ u, (d.settle number route id ended w).Ends off ts u r) ↔
      ts = [] ∧ r = d.answered id (some ended) := by
  cases ended with
  | error e => simp [settle, answered, Except.map]
  | ok outcome => simp [settle, conclude, answered, Except.map]

/-- The failure of a run whose limit has passed can be made. -/
theorem ofFault_timeOut (limit : Value) :
    Failure.ofFault (.cancelled
      (.text ("Invocation timed out after " ++ limit.shown .empty ++ " seconds"))
      [(.text "timeout_seconds", limit)]) = .ok (lateness limit) := rfl

/-- Timing out answers the caller at once. -/
theorem timeOut_ends_iff {limit : Value} (hlimit : d.timeout = some limit) :
    (∃ u, (d.timeOut number route id limit w).Ends off ts u r) ↔
      ts = [] ∧ r = d.answered id none := by
  simp only [timeOut, ofFault_timeOut, Checked.raise, settle_ends_iff]
  simp [answered, hlimit, Except.map]

variable {engine : Engine} {pipeline : Pipeline} {invocation : Invocation}

/-- Without a limit a run is answered with what it ends with. -/
theorem runWithin_of_unlimited (hlimit : d.timeout = none) :
    (∃ u, (d.runWithin engine route pipeline invocation id w).Ends off ts u r) ↔
      ∃ u ended, (engine.run pipeline invocation w).Ends off ts u ended ∧
        r = d.answered id (some ended) := by
  unfold runWithin
  simp only [hlimit, Activity.ends_bind_iff]
  constructor
  · rintro ⟨u, before, after, v, ended, rfl, hrun, hsettle⟩
    -- Settling takes no turn, so all turns are those of the run.
    obtain ⟨rfl, rfl⟩ := settle_ends_iff.mp ⟨u, hsettle⟩
    exact ⟨v, ended, by simpa using hrun, rfl⟩
  · rintro ⟨v, ended, hrun, rfl⟩
    obtain ⟨u, hsettle⟩ := settle_ends_iff.mpr ⟨rfl, rfl⟩
    exact ⟨u, ts, [], v, ended, by simp, hrun, hsettle⟩

/-- A limit that has passed from the start is told after three turns. -/
theorem runWithin_of_passed {limit : Value} (hlimit : d.timeout = some limit)
    (hpassed : hasPassed limit = true) :
    (∃ u, (d.runWithin engine route pipeline invocation id w).Ends off ts u r) ↔
      ∃ t₁ t₂ t₃, ts = [t₁, t₂, t₃] ∧ r = d.answered id none := by
  unfold runWithin
  simp only [hlimit, hpassed, ↓reduceIte, Activity.ends_later_iff]
  constructor
  · rintro ⟨u, t₁, _, rfl, t₂, _, rfl, t₃, rest, rfl, htimeOut⟩
    obtain ⟨rfl, rfl⟩ := (timeOut_ends_iff hlimit).mp ⟨u, htimeOut⟩
    exact ⟨t₁, t₂, t₃, rfl, rfl⟩
  · rintro ⟨t₁, t₂, t₃, rfl, rfl⟩
    obtain ⟨u, htimeOut⟩ := (timeOut_ends_iff hlimit).mpr ⟨rfl, rfl⟩
    exact ⟨u, t₁, _, rfl, t₂, _, rfl, t₃, _, rfl, htimeOut⟩

/-- With a limit that has not passed a run is answered with what it ends with, or the limit
passes while it waits. -/
theorem runWithin_of_limited {limit : Value} (hlimit : d.timeout = some limit)
    (hpassed : hasPassed limit = false) :
    (∃ u, (d.runWithin engine route pipeline invocation id w).Ends off ts u r) ↔
      (∃ t during v ended t₁ t₂, ts = t :: during ++ [t₁, t₂] ∧
        (engine.run pipeline invocation t).Ends false during v ended ∧
          r = d.answered id (some ended)) ∨
      ∃ t during t', ts = t :: during ++ [t'] ∧ off = true ∧
        (engine.run pipeline invocation t).Waits during ∧
        r = d.answered id none := by
  -- The run is one with a limit, so it ends without a wait or waits until the limit has passed.
  unfold runWithin
  simp only [hlimit, hpassed, Bool.false_eq_true, ↓reduceIte, Activity.ends_later_iff,
    Activity.ends_bind_iff, Activity.ends_limited_iff, Activity.ends_map_iff,
      Activity.waits_map_iff, Activity.ends_done_iff]
  constructor
  · rintro ⟨u, t, _, rfl, before, after, v, x, rfl,
      ⟨ended, hrun, rfl⟩ | ⟨hoff, before', t', _, rfl, hwaits, rfl, -, rfl⟩, hrest⟩
    · obtain ⟨t₁, _, rfl, t₂, rest, rfl, hsettle⟩ := by
        simpa only [Activity.ends_later_iff] using hrest
      obtain ⟨rfl, rfl⟩ := settle_ends_iff.mp ⟨u, hsettle⟩
      exact .inl ⟨t, before, v, ended, t₁, t₂, by simp, hrun, rfl⟩
    · obtain ⟨rfl, rfl⟩ := (timeOut_ends_iff hlimit).mp ⟨u, hrest⟩
      exact .inr ⟨t, before', t', by simp, hoff, hwaits, rfl⟩
  · rintro (⟨t, during, v, ended, t₁, t₂, rfl, hrun, rfl⟩ | ⟨t, during, t', rfl, hoff, hwaits, rfl⟩)
    · obtain ⟨u, hsettle⟩ : ∃ u, (d.settle invocation.number route id ended t₂).Ends off [] u
          (d.answered id (some ended)) := settle_ends_iff.mpr ⟨rfl, rfl⟩
      refine ⟨u, t, during ++ [t₁, t₂], rfl, during, [t₁, t₂], v, some ended, rfl,
        .inl ⟨ended, hrun, rfl⟩, ?_⟩
      simp only [Activity.ends_later_iff]
      exact ⟨t₁, _, rfl, t₂, _, rfl, hsettle⟩
    · obtain ⟨u, htimeOut⟩ : ∃ u, (d.timeOut invocation.number route id limit t').Ends off [] u
          (d.answered id none) := (timeOut_ends_iff hlimit).mpr ⟨rfl, rfl⟩
      exact ⟨u, t, during ++ [t'], rfl, during ++ [t'], [], t', none, by simp,
        .inr ⟨hoff, during, t', [], rfl, hwaits, rfl, rfl, rfl⟩, htimeOut⟩

/-- **Within the limit**: a run is answered as its courses are. -/
theorem runWithin_ends_iff :
    (∃ u, (d.runWithin engine route pipeline invocation id w).Ends off ts u r) ↔
      ∃ u result, d.Course (engine.run pipeline invocation) off w ts u result ∧
        r = d.answered id result := by
  constructor
  · intro h
    -- One case for each way of limiting a run.
    cases hlimit : d.timeout with
    | none =>
      obtain ⟨u, ended, hrun, hr⟩ := (runWithin_of_unlimited hlimit).mp h
      exact ⟨u, some ended, .unlimited hlimit hrun, hr⟩
    | some limit =>
      cases hpassed : hasPassed limit with
      | true =>
        obtain ⟨t₁, t₂, t₃, rfl, hr⟩ := (runWithin_of_passed hlimit hpassed).mp h
        exact ⟨t₃, none, .passed hlimit hpassed, hr⟩
      | false =>
        rcases (runWithin_of_limited hlimit hpassed).mp h with
          ⟨t, during, v, ended, t₁, t₂, rfl, hrun, hr⟩ | ⟨t, during, t', rfl, hoff, hwaits, hr⟩
        · exact ⟨t₂, some ended, .inTime hlimit hpassed hrun, hr⟩
        · exact ⟨t', none, .expired hlimit hpassed hoff hwaits, hr⟩
  · rintro ⟨u, result, hcourse, rfl⟩
    cases hcourse with
    | unlimited hlimit hrun => exact (runWithin_of_unlimited hlimit).mpr ⟨u, _, hrun, rfl⟩
    | passed hlimit hpassed => exact (runWithin_of_passed hlimit hpassed).mpr ⟨_, _, _, rfl, rfl⟩
    | inTime hlimit hpassed hrun =>
      exact (runWithin_of_limited hlimit hpassed).mpr (.inl ⟨_, _, _, _, _, _, rfl, hrun, rfl⟩)
    | expired hlimit hpassed hoff hwaits =>
      exact (runWithin_of_limited hlimit hpassed).mpr (.inr ⟨_, _, _, rfl, hoff, hwaits, rfl⟩)

/-! ## §4 Handling a request -/

/-- The service after a request was answered at once. -/
def answeredAtOnce (service : Service) (w : World) : Service :=
  { service with world := w, received := service.received + 1 }

/-- **A route that is not served** is told at once. -/
theorem handle_of_unserved (h : asksFor service request = none) :
    d.handle request service = .done
      (answeredAtOnce service (d.conclude service.received request.route (d.idOf service request)
        (.failed (absence request.route) []) (d.welcome service request)).1)
      (.ok { outcome := .failed (absence request.route) [],
             correlationId := some (d.idOf service request) }) := by
  rw [asksFor] at h
  simp only [handle, answer, h]
  rfl

/-- **A caller who is denied** is told so at once, and nothing else. -/
theorem handle_of_denied {pipeline : Pipeline} (h : asksFor service request = some pipeline)
    (hdenied : (decides service request).allowed = false) :
    d.handle request service = .done
      (answeredAtOnce service (d.conclude service.received request.route (d.idOf service request)
        (.failed Failure.denial [])
        (d.reportDenial service.received request.route (decides service request)
          (d.welcome service request))).1)
      (.ok { outcome := .failed Failure.denial [],
             correlationId := some (d.idOf service request) }) := by
  rw [asksFor] at h
  rw [decides] at hdenied
  simp only [handle, answer, h, hdenied]
  rfl

/-- Past the gate, a request is answered with what the run of its pipeline comes
to within the limit. -/
theorem answer_of_allowed {pipeline : Pipeline} (h : asksFor service request = some pipeline)
    (hallowed : (decides service request).allowed = true) :
    d.answer service.current service.received request (d.idOf service request) service.world =
      d.runWithin (d.engineOf service) request.route pipeline (d.invocationOf service request)
        (d.idOf service request) (d.welcome service request) := by
  rw [asksFor] at h
  rw [decides] at hallowed
  simp only [answer, h, hallowed]
  rfl

/-- **A caller who is allowed** is answered with what the run of the pipeline ends with,
unless the limit passes. -/
theorem handle_ends_iff_of_allowed {pipeline : Pipeline} {states : List Service}
    {r : Except Raised Response} (h : asksFor service request = some pipeline)
    (hallowed : (decides service request).allowed = true) :
    (∃ s, (d.handle request service).Ends off states s r) ↔
      ∃ u result, d.Course ((d.engineOf service).run pipeline (d.invocationOf service request)) off
          (d.welcome service request) (states.map (·.world)) u result ∧
        r = d.answered (d.idOf service request) result := by
  have hwithin : (∃ u, (d.runWithin (d.engineOf service) request.route pipeline
      (d.invocationOf service request) (d.idOf service request) (d.welcome service request)).Ends
        off (states.map (·.world)) u r) ↔ _ :=
    runWithin_ends_iff
  rw [← hwithin, handle, answer_of_allowed h hallowed]
  -- Handling acts on the world of the service and leaves the rest of it to the others.
  constructor
  · rintro ⟨s, hends⟩
    obtain ⟨u, hu, -⟩ := Activity.ends_within_iff.mp hends
    exact ⟨u, hu⟩
  · rintro ⟨u, hu⟩
    exact ⟨_, Activity.ends_within_iff.mpr ⟨u, hu, rfl⟩⟩

end Switchyard.Dispatcher
