import Switchyard.Proofs.Dispatch.Course
import Switchyard.Proofs.Engine.Trail

/-!
# The story of a request

What the handling of a request comes to: the route is not served, the caller is denied, the run of
the pipeline comes to a halt, or the limit passes before it begins. Both what the caller is answered
and what the hooks are told can be read from it.

Main statements: a request is answered as its story goes (`handle_ends_iff`), and the hooks are told
the calls of its story (`Handles.adds`).
-/

namespace Switchyard

/-! ## §1 Stories -/

/-- What the handling of a request comes to. -/
inductive Story
  | unserved
  | denied
  /-- The run completes some steps and comes to a halt; if its unit waits, the limit passes. -/
  | ran (completed : List Step) (halt : Halt)
  /-- The limit has passed before the run begins. -/
  | late

namespace Dispatcher

/-- **How an allowed request goes**, in the worlds in which it is resumed: its run comes to a halt,
or the limit passes. -/
inductive RunsWithin (d : Dispatcher) (service : Service) (request : Request) (pipeline : Pipeline)
    (off : Bool) : List World → Story → Prop
  | unlimited {ts : List World} {completed : List Step} {halt : Halt} {outcome : Outcome} :
      d.timeout = none →
      (d.engineOf service).Halts pipeline (d.invocationOf service request) off
        (d.welcome service request) ts completed halt →
      halt.outcome? completed.length = some outcome →
      RunsWithin d service request pipeline off ts (.ran completed halt)
  | passed {limit : Value} {t₁ t₂ t₃ : World} :
      d.timeout = some limit → hasPassed limit = true →
      RunsWithin d service request pipeline off [t₁, t₂, t₃] .late
  | inTime {limit : Value} {t t₁ t₂ : World} {during : List World}
      {completed : List Step} {halt : Halt} {outcome : Outcome} :
      d.timeout = some limit → hasPassed limit = false →
      (d.engineOf service).Halts pipeline
        (d.invocationOf service request) false t during completed halt →
      halt.outcome? completed.length = some outcome →
      RunsWithin d service request pipeline off (t :: during ++ [t₁, t₂]) (.ran completed halt)
  | expired {limit : Value} {t t' : World} {during : List World} {completed : List Step}
      {step : Step} : d.timeout = some limit → hasPassed limit = false → off = true →
      (d.engineOf service).Halts pipeline (d.invocationOf service request) false t during completed
        (.waits step) →
      RunsWithin d service request pipeline off (t :: during ++ [t']) (.ran completed (.waits step))

/-- **The story of a request** that is resumed in the given worlds. -/
inductive Handles (d : Dispatcher) (service : Service) (request : Request) (off : Bool) :
    List World → Story → Prop
  | unserved :
      asksFor service request = none → Handles d service request off [] .unserved
  | denied {pipeline : Pipeline} :
      asksFor service request = some pipeline → (decides service request).allowed = false →
      Handles d service request off [] .denied
  | allowed {pipeline : Pipeline} {ts : List World} {story : Story} :
      asksFor service request = some pipeline → (decides service request).allowed = true →
      d.RunsWithin service request pipeline off ts story →
      Handles d service request off ts story

end Dispatcher

/-! ## §2 What is told of a story -/

namespace Story

/-- Whether the limit passed. -/
def isLate : Story → Bool
  | .late | .ran _ (.waits _) => true
  | .unserved | .denied | .ran _ (.through _ _) | .ran _ (.calledOff _) | .ran _ (.failed _ _) =>
    false

/-- The outcome that the caller is told. -/
def outcome (d : Dispatcher) (request : Request) : Story → Outcome
  | .unserved => .failed (Dispatcher.absence request.route) []
  | .denied => .failed Failure.denial []
  | .ran completed halt =>
    (halt.outcome? completed.length).getD (.failed (Dispatcher.lateness (d.timeout.getD .null)) [])
  | .late => .failed (Dispatcher.lateness (d.timeout.getD .null)) []

/-- What the caller is answered. -/
def response (d : Dispatcher) (service : Service) (request : Request) (story : Story) :
    Response where
  outcome := story.outcome d request
  correlationId := some (d.idOf service request)

/-- What is told of a request after it has come in and before it ends. -/
def middle (d : Dispatcher) (service : Service) (request : Request) (story : Story) :
    List HookCall :=
  let told := match story with
    | .unserved | .late => []
    | .denied => [.audit (Dispatcher.denialCall request.route (Dispatcher.decides service request)),
        .metric (Dispatcher.denialSample request.route)]
    | .ran completed halt => Engine.runCalls completed halt
  told ++ if story.isLate then
    [.audit (Dispatcher.latenessCall request.route (d.timeout.getD .null))] else []

/-- **The calls of a story.** -/
def calls (d : Dispatcher) (service : Service) (request : Request) (story : Story) :
    List HookCall :=
  .audit (.identified (d.idOf service request)) :: story.middle d service request ++
    Dispatcher.endCalls request.route (story.outcome d request)

section

variable {d : Dispatcher} {service : Service} {request : Request} {completed : List Step}
  {halt : Halt} {outcome : Outcome}

theorem outcome_of_ended (h : halt.outcome? completed.length = some outcome) :
    (Story.ran completed halt).outcome d request = outcome := by
  rw [Story.outcome, h, Option.getD_some]

/-- Of a run that ends nothing else is told. -/
theorem middle_of_ended (h : halt.outcome? completed.length = some outcome) :
    (Story.ran completed halt).middle d service request = Engine.runCalls completed halt := by
  cases halt with
  | waits step => cases h
  | through value outputs | calledOff step | failed step failure => exact List.append_nil _

end

end Story

namespace Dispatcher

variable {d : Dispatcher} {service : Service} {request : Request} {pipeline : Pipeline} {off : Bool}
  {ts : List World} {states : List Service} {story : Story} {response : Response} {number : Nat}
  {route : Route} {id : String} {w : World} {outcome : Outcome}

/-! ## §3 What is answered -/

/-- A run that ended is answered with its outcome. -/
theorem answered_some_iff {ended : Except Raised Outcome} :
    .ok response = d.answered id (some ended) ↔
      ∃ outcome, ended = .ok outcome ∧ response = { outcome, correlationId := some id } := by
  cases ended with
  | error e => simp [answered, Except.map]
  | ok outcome => simp [answered, Except.map]

theorem answered_none_iff :
    .ok response = d.answered id none ↔
      response =
        { outcome := .failed (lateness (d.timeout.getD .null)) [], correlationId := some id } := by
  simp [answered]

/-- **Within the limit** a run is answered as the request goes. -/
theorem course_iff_runsWithin :
    (∃ u result, d.Course ((d.engineOf service).run pipeline (d.invocationOf service request)) off
        (d.welcome service request) ts u result ∧
          .ok response = d.answered (d.idOf service request) result) ↔
      ∃ story, d.RunsWithin service request pipeline off ts story ∧
        response = story.response d service request := by
  constructor
  · rintro ⟨u, result, hcourse, hresponse⟩
    -- One case for each way of limiting a run.
    cases hcourse with
    | unlimited hlimit hrun =>
      obtain ⟨outcome, rfl, rfl⟩ := answered_some_iff.mp hresponse
      obtain ⟨completed, halt, hhalts, houtcome⟩ := Engine.run_ends_iff.mp ⟨_, hrun⟩
      refine ⟨_, .unlimited hlimit hhalts houtcome, ?_⟩
      rw [Story.response, Story.outcome_of_ended houtcome]
    | passed hlimit hpassed => exact ⟨_, .passed hlimit hpassed, answered_none_iff.mp hresponse⟩
    | inTime hlimit hpassed hrun =>
      obtain ⟨outcome, rfl, rfl⟩ := answered_some_iff.mp hresponse
      obtain ⟨completed, halt, hhalts, houtcome⟩ := Engine.run_ends_iff.mp ⟨_, hrun⟩
      refine ⟨_, .inTime hlimit hpassed hhalts houtcome, ?_⟩
      rw [Story.response, Story.outcome_of_ended houtcome]
    | expired hlimit hpassed hoff hwaits =>
      obtain ⟨completed, step, hhalts⟩ := Engine.run_waits_iff.mp hwaits
      exact ⟨_, .expired hlimit hpassed hoff hhalts, answered_none_iff.mp hresponse⟩
  · rintro ⟨story, hruns, rfl⟩
    cases hruns with
    | unlimited hlimit hhalts houtcome =>
      obtain ⟨v, hrun⟩ := Engine.run_ends_iff.mpr ⟨_, _, hhalts, houtcome⟩
      refine ⟨v, _, .unlimited hlimit hrun, answered_some_iff.mpr ⟨_, rfl, ?_⟩⟩
      rw [Story.response, Story.outcome_of_ended houtcome]
    | passed hlimit hpassed => exact ⟨_, _, .passed hlimit hpassed, answered_none_iff.mpr rfl⟩
    | inTime hlimit hpassed hhalts houtcome =>
      obtain ⟨v, hrun⟩ := Engine.run_ends_iff.mpr ⟨_, _, hhalts, houtcome⟩
      refine ⟨_, _, .inTime hlimit hpassed hrun, answered_some_iff.mpr ⟨_, rfl, ?_⟩⟩
      rw [Story.response, Story.outcome_of_ended houtcome]
    | expired hlimit hpassed hoff hhalts =>
      exact ⟨_, _, .expired hlimit hpassed hoff (Engine.run_waits_iff.mpr ⟨_, _, hhalts⟩),
        answered_none_iff.mpr rfl⟩

theorem handles_iff_of_unserved (h : asksFor service request = none) :
    d.Handles service request off ts story ↔ ts = [] ∧ story = .unserved := by
  constructor
  · intro hstory
    cases hstory with
    | unserved _ => exact ⟨rfl, rfl⟩
    | denied hasks _ | allowed hasks _ _ => cases h.symm.trans hasks
  · rintro ⟨rfl, rfl⟩
    exact .unserved h

theorem handles_iff_of_denied (h : asksFor service request = some pipeline)
    (hdenied : (decides service request).allowed = false) :
    d.Handles service request off ts story ↔ ts = [] ∧ story = .denied := by
  constructor
  · intro hstory
    cases hstory with
    | unserved hasks => cases h.symm.trans hasks
    | denied _ _ => exact ⟨rfl, rfl⟩
    | allowed _ hallowed _ => cases hdenied.symm.trans hallowed
  · rintro ⟨rfl, rfl⟩
    exact .denied h hdenied

theorem handles_iff_of_allowed (h : asksFor service request = some pipeline)
    (hallowed : (decides service request).allowed = true) :
    d.Handles service request off ts story ↔
      d.RunsWithin service request pipeline off ts story := by
  constructor
  · intro hstory
    cases hstory with
    | unserved hasks => cases h.symm.trans hasks
    | denied _ hdenied => cases hallowed.symm.trans hdenied
    | allowed hasks _ hruns =>
      obtain rfl := Option.some.inj (h.symm.trans hasks)
      exact hruns
  · exact .allowed h hallowed

/-- **What is answered**: handling a request ends with the answer of its story. -/
theorem handle_ends_iff :
    (∃ s, (d.handle request service).Ends off states s (.ok response)) ↔
      ∃ story, d.Handles service request off (states.map (·.world)) story ∧
        response = story.response d service request := by
  cases hasks : asksFor service request with
  | none =>
    rw [handle_of_unserved hasks]
    simp [handles_iff_of_unserved hasks, Story.response, Story.outcome]
  | some pipeline =>
    cases hallowed : (decides service request).allowed with
    | false =>
      rw [handle_of_denied hasks hallowed]
      simp [handles_iff_of_denied hasks hallowed, Story.response, Story.outcome]
    | true =>
      rw [handle_ends_iff_of_allowed hasks hallowed, course_iff_runsWithin]
      simp only [handles_iff_of_allowed hasks hallowed]

/-! ## §4 What is added to the trail -/

theorem conclude_trail (id : String) :
    (d.conclude number route id outcome w).1.trail =
      w.trail ++ d.hooks.heard number (endCalls route outcome) := by
  simp only [conclude, World.measure_trail, List.append_assoc, ← Hooks.heard_append]
  rfl

theorem reportDenial_trail {decision : Decision} :
    (d.reportDenial number route decision w).trail = w.trail ++
      d.hooks.heard number [.audit (denialCall route decision), .metric (denialSample route)] := by
  simp only [reportDenial, World.audit_trail, World.measure_trail, List.append_assoc,
    ← Hooks.heard_append]
  rfl

theorem welcome_trail :
    (d.welcome service request).trail =
      service.world.trail ++ d.hooks.heard service.received
        [.audit (.identified (d.idOf service request))] :=
  World.audit_trail

/-- Settling an invocation adds the samples of its end. -/
theorem settle_adds :
    Activity.Adds World.trail w (d.settle number route id (.ok outcome) w) []
      (d.hooks.heard number (endCalls route outcome)) :=
  Activity.adds_done_iff.mpr ⟨rfl, conclude_trail id⟩

/-- Timing out adds that the limit has passed, and the samples of the end. -/
theorem timeOut_adds {limit : Value} :
    Activity.Adds World.trail w (d.timeOut number route id limit w) []
      (d.hooks.heard number (.audit (latenessCall route limit) :: endCalls route
        (.failed (lateness limit) []))) := by
  rw [← List.singleton_append, Hooks.heard_append]
  exact settle_adds.of_earlier World.audit_trail

/-- **A run within the limit** adds the calls of its story, but for the first one. -/
theorem RunsWithin.adds (h : d.RunsWithin service request pipeline off ts story) :
    Activity.Adds World.trail (d.welcome service request)
      (d.runWithin (d.engineOf service) request.route pipeline (d.invocationOf service request)
        (d.idOf service request) (d.welcome service request)) ts
      (d.hooks.heard service.received
        (story.middle d service request ++ endCalls request.route (story.outcome d request))) := by
  cases h with
  | unlimited hlimit hhalts houtcome =>
    obtain ⟨v, hrun⟩ := Engine.run_ends_iff.mpr ⟨_, _, hhalts, houtcome⟩
    rw [Story.middle_of_ended houtcome, Story.outcome_of_ended houtcome, Hooks.heard_append,
      ← List.append_nil ts]
    simp only [runWithin, hlimit]
    exact hhalts.adds.bind hrun settle_adds
  | passed hlimit hpassed =>
    simp only [runWithin, Story.middle, Story.outcome, Story.isLate, hlimit, hpassed, ↓reduceIte]
    exact .later (.later (.later timeOut_adds))
  | @inTime limit t t₁ t₂ during completed halt outcome hlimit hpassed hhalts houtcome =>
    obtain ⟨v, hrun⟩ := Engine.run_ends_iff.mpr ⟨_, _, hhalts, houtcome⟩
    have hmapped : (((d.engineOf service).run pipeline (d.invocationOf service request) t).map
        some).Ends false during v (some (.ok outcome)) := Activity.ends_map_iff.mpr ⟨_, hrun, rfl⟩
    rw [Story.middle_of_ended houtcome, Story.outcome_of_ended houtcome, Hooks.heard_append]
    simp only [runWithin, hlimit, hpassed, Bool.false_eq_true, ↓reduceIte]
    exact .later (hhalts.adds.map.bind_limited hmapped (.later (.later settle_adds)))
  | @expired limit t t' during completed step hlimit hpassed hoff hhalts =>
    have hwaits : (((d.engineOf service).run pipeline (d.invocationOf service request) t).map
        some).Waits during :=
      Activity.waits_map_iff.mpr (Engine.run_waits_iff.mpr ⟨_, _, hhalts⟩)
    have hcalls : Hooks.heard d.hooks service.received ((Story.ran completed (.waits step)).middle d
        service request ++ endCalls request.route
          ((Story.ran completed (.waits step)).outcome d request)) =
      d.hooks.heard service.received (Engine.runCalls completed (.waits step)) ++
        d.hooks.heard service.received
          (.audit (latenessCall request.route limit) :: endCalls request.route
            (.failed (lateness limit) [])) := by
      simp [Story.middle, Story.outcome, Story.isLate, Halt.outcome?, hlimit, ← Hooks.heard_append]
    rw [hcalls, ← List.append_nil (t :: during ++ [t'])]
    simp only [runWithin, hlimit, hpassed, Bool.false_eq_true, ↓reduceIte]
    -- The limit passes while the run waits, and then nothing is left but to tell so.
    exact .later (hhalts.adds.map.bind_expired hwaits rfl timeOut_adds)

/-- **What the hooks are told** while a request is handled are the calls of its story. -/
theorem Handles.adds (h : d.Handles service request off (states.map (·.world)) story) :
    Activity.Adds (·.world.trail) service (d.handle request service) states
      (d.hooks.heard service.received (story.calls d service request)) := by
  rw [Story.calls, List.cons_append, ← List.singleton_append, Hooks.heard_append]
  cases hasks : asksFor service request with
  | none =>
    obtain ⟨hts, rfl⟩ := (handles_iff_of_unserved hasks).mp h
    obtain rfl := List.map_eq_nil_iff.mp hts
    rw [handle_of_unserved hasks]
    refine Activity.adds_done_iff.mpr ⟨rfl, ?_⟩
    show (d.conclude _ _ (d.idOf service request) _ _).1.trail = _
    rw [conclude_trail, welcome_trail, List.append_assoc]
    rfl
  | some pipeline =>
    cases hallowed : (decides service request).allowed with
    | false =>
      obtain ⟨hts, rfl⟩ := (handles_iff_of_denied hasks hallowed).mp h
      obtain rfl := List.map_eq_nil_iff.mp hts
      rw [handle_of_denied hasks hallowed]
      refine Activity.adds_done_iff.mpr ⟨rfl, ?_⟩
      show (d.conclude _ _ (d.idOf service request) _ _).1.trail = _
      rw [conclude_trail, reportDenial_trail, welcome_trail, Hooks.heard_append]
      simp [Story.middle, Story.isLate, Story.outcome]
    | true =>
      have hruns := ((handles_iff_of_allowed hasks hallowed).mp h).adds
      rw [handle, answer_of_allowed hasks hallowed]
      apply Activity.Adds.within fun _ _ => rfl
      exact hruns.of_earlier welcome_trail

/-! ## §5 Growth -/

theorem settle_grows {ended : Except Raised Outcome} :
    Activity.Grows World.trail w (d.settle number route id ended w) := by
  cases ended with
  | error e => exact List.prefix_rfl
  | ok outcome => exact ⟨_, (conclude_trail id).symm⟩

theorem timeOut_grows {limit : Value} :
    Activity.Grows World.trail w (d.timeOut number route id limit w) := by
  have htold : w.trail <+: (w.audit d.hooks number (latenessCall route limit)).trail :=
    ⟨_, World.audit_trail.symm⟩
  unfold timeOut
  exact settle_grows.of_earlier htold

theorem runWithin_grows {engine : Engine} {invocation : Invocation} :
    Activity.Grows World.trail w (d.runWithin engine route pipeline invocation id w) := by
  unfold runWithin
  cases d.timeout with
  | none => exact Engine.run_grows.bind fun _ _ => settle_grows
  | some limit =>
    cases hpassed : hasPassed limit with
    | true =>
      simp only [hpassed, ↓reduceIte]
      exact .later fun _ => .later fun _ => .later fun _ => timeOut_grows
    | false =>
      simp only [hpassed, Bool.false_eq_true, ↓reduceIte]
      refine .later fun t => .bind (Engine.run_grows.map.limited fun u => ?_) fun u ended => ?_
      · exact List.prefix_rfl
      · cases ended with
        | none => exact timeOut_grows
        | some ended => exact .later fun _ => .later fun _ => settle_grows

/-- **Handling a request only adds** to the trail, whatever comes of it. -/
theorem handle_grows : Activity.Grows
    (fun service : Service => service.world.trail) service (d.handle request service) := by
  cases hasks : asksFor service request with
  | none =>
    have hstory : d.Handles service request false (([] : List Service).map (·.world)) .unserved :=
      .unserved hasks
    have hadds := hstory.adds
    rw [handle_of_unserved hasks] at hadds ⊢
    exact ⟨_, (Activity.adds_done_iff.mp hadds).2.symm⟩
  | some pipeline =>
    cases hallowed : (decides service request).allowed with
    | false =>
      have hstory : d.Handles service request false (([] : List Service).map (·.world)) .denied :=
        .denied hasks hallowed
      have hadds := hstory.adds
      rw [handle_of_denied hasks hallowed] at hadds ⊢
      exact ⟨_, (Activity.adds_done_iff.mp hadds).2.symm⟩
    | true =>
      rw [handle, answer_of_allowed hasks hallowed]
      apply Activity.Grows.within fun _ _ => rfl
      exact runWithin_grows.of_earlier ⟨_, welcome_trail.symm⟩

end Dispatcher

end Switchyard
