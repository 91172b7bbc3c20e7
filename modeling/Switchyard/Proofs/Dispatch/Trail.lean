import Mathlib.Data.Int.CharZero
import Switchyard.Proofs.Dispatch.Story
import Switchyard.Proofs.Engine.Failures
import Switchyard.Units.Probe

/-!
# The trail of a request

An audit hook that listens is told of a request: the identifier first, then the denial, or step
after step what starts and how it ends. From its calls alone one can tell which step the request
failed at, unless it was called off.

Main statement: `audits_of_handle`.
-/

namespace Switchyard

/-! ## §1 Trails of steps -/

/-- **A trail of steps**, the first of which is at an index: each step that starts either ends, with
one more output, and the next one may start; or it fails, and nothing follows. -/
inductive StepTrail : (index : Nat) → List Step → List AuditCall → Prop
  | stops {index : Nat} {steps : List Step} :
      StepTrail index steps []
  | completes {index : Nat} {step : Step} {rest : List Step} {calls : List AuditCall} :
      StepTrail (index + 1) rest calls →
      StepTrail index (step :: rest) (step.startCall index :: step.endCall (index + 1) :: calls)
  | fails {index : Nat} {step : Step} {rest : List Step} (failure : Failure) :
      StepTrail index (step :: rest) [step.startCall index, step.anomalyCall index failure]

namespace Engine

variable {engine : Engine} {pipeline : Pipeline} {invocation : Invocation} {off : Bool} {w : World}
  {ts : List World} {completed rest steps : List Step} {halt : Halt} {index : Nat}
  {more : List AuditCall}

/-- What is told about completed steps goes on with a trail of the steps that are left. -/
theorem stepTrail_of_completed (h : StepTrail (index + completed.length) rest more) :
    StepTrail index (completed ++ rest)
      ((completedCalls index completed).filterMap HookCall.audit? ++ more) := by
  induction completed generalizing index with
  | nil => exact h
  | cons step completed ih =>
    refine .completes (ih ?_)
    rwa [Nat.add_assoc, Nat.add_comm 1]

/-- **What a run tells the audit hook** is a trail of its steps, unless its unit waits. -/
theorem Halts.stepTrail {outcome : Outcome}
    (h : engine.Halts pipeline invocation off w ts completed halt)
    (houtcome : halt.outcome? completed.length = some outcome) :
    StepTrail 0 pipeline.steps ((runCalls completed halt).filterMap HookCall.audit?) := by
  rw [runCalls, List.filterMap_append]
  cases h with
  | through hreached _ =>
    rw [← hreached.steps_eq]
    exact stepTrail_of_completed .stops
  | calledOff hreached _ =>
    rw [← hreached.steps_eq]
    exact stepTrail_of_completed .stops
  | failed hreached _ _ =>
    rw [← hreached.steps_eq]
    apply stepTrail_of_completed
    rw [Nat.zero_add]
    exact .fails _
  | waits _ _ _ => cases houtcome

/-- No anomaly is told about completed steps. -/
theorem anomaly_notMem_completedCalls (message severity : String) (context : Entries) :
    .anomaly message severity context ∉ (completedCalls index steps).filterMap HookCall.audit? := by
  intro h
  obtain ⟨call, hmem, hcall⟩ := List.mem_filterMap.mp h
  obtain ⟨⟨step, place⟩, -, hstep⟩ := List.mem_flatMap.mp hmem
  simp only [Step.calls, List.mem_cons, List.not_mem_nil, or_false] at hstep
  rcases hstep with rfl | rfl | rfl <;> cases hcall

/-- The failure of a run is that of the step after those that are completed. -/
theorem Halts.stepIndex_eq {step : Step} {failure : Failure}
    (h : engine.Halts pipeline invocation off w ts completed (.failed step failure)) :
    failure.stepIndex = some (completed.length : Int) := by
  cases h with
  | failed _ _ hfails =>
    rw [List.length_map]
    cases hfails with
    | unresolved _ htold => exact (names_of_failureAt htold).2
    | raised _ _ htold => exact (names_of_failureAt htold).2

end Engine

/-! ## §2 The step that a request fails at -/

/-- **The answer is a failure of a step**, that at the given index. -/
def Response.FailsAt (response : Response) (index : Nat) : Prop :=
  ∃ failure outputs, response.outcome = .failed failure outputs ∧
    failure.stepIndex = some (index : Int)

/-- **The calls end with the anomaly of a step**, that at the given index. -/
def EndsWithAnomaly (calls : List AuditCall) (index : Nat) : Prop :=
  ∃ step failure, calls.getLast? = some (Step.anomalyCall step index failure)

/-- The anomaly of a step tells its index. -/
theorem endsWithAnomaly_concat_iff {calls : List AuditCall} {step : Step} {failure : Failure}
    {place index : Nat} :
    EndsWithAnomaly (calls ++ [step.startCall place, step.anomalyCall place failure]) index ↔
      place = index := by
  have hlast : (calls ++ [step.startCall place, step.anomalyCall place failure]).getLast? =
      some (step.anomalyCall place failure) := by
    simp
  constructor
  · rintro ⟨step', failure', hcall⟩
    have hsame : step.anomalyCall place failure = step'.anomalyCall index failure' :=
      Option.some.inj (hlast.symm.trans hcall)
    have hindex : Value.int (place : Int) = .int (index : Int) := by
      simp only [Step.anomalyCall, AuditCall.anomaly.injEq, List.cons.injEq, Prod.mk.injEq] at hsame
      exact hsame.2.2.2.1.2
    exact Int.ofNat_inj.mp (by simpa [Value.int] using hindex)
  · rintro rfl
    exact ⟨step, failure, hlast⟩

/-- Calls among which there is no anomaly end with none. -/
theorem not_endsWithAnomaly {calls : List AuditCall} {index : Nat}
    (h : ∀ message severity context, .anomaly message severity context ∉ calls) :
    ¬ EndsWithAnomaly calls index := by
  rintro ⟨step, failure, hcall⟩
  exact h _ _ _ (List.mem_of_getLast? hcall)

namespace Dispatcher

/-- **The request was called off before a step**, that at the given index. -/
def CalledOffBefore (d : Dispatcher) (service : Service) (request : Request) (off : Bool)
    (ts : List World) (index : Nat) : Prop :=
  ∃ completed step, completed.length = index ∧
    d.Handles service request off ts (.ran completed (.calledOff step))

variable {d : Dispatcher} {service : Service} {request : Request} {pipeline : Pipeline} {off : Bool}
  {ts : List World} {states : List Service} {story : Story} {response : Response}
  {completed : List Step} {halt : Halt} {index : Nat}

/-- A request that was run was allowed, and its run came to a halt. -/
theorem Handles.halts (h : d.Handles service request off ts (.ran completed halt)) :
    ∃ pipeline, asksFor service request = some pipeline ∧ (decides service request).allowed = true ∧
      ∃ off' w ts', (d.engineOf service).Halts pipeline
        (d.invocationOf service request) off' w ts' completed halt := by
  cases h with
  | allowed hasks hallowed hruns =>
    refine ⟨_, hasks, hallowed, ?_⟩
    cases hruns with
    | unlimited _ hhalts _ | inTime _ _ hhalts _ | expired _ _ _ hhalts => exact ⟨_, _, _, hhalts⟩

/-- One request has one answer. -/
theorem Handles.response_eq {story' : Story}
    (h : d.Handles service request off (states.map (·.world)) story)
    (h' : d.Handles service request off (states.map (·.world)) story') :
    story.response d service request = story'.response d service request := by
  obtain ⟨s, hends⟩ := handle_ends_iff.mpr ⟨story, h, rfl⟩
  obtain ⟨s', hends'⟩ := handle_ends_iff.mpr ⟨story', h', rfl⟩
  exact Except.ok.inj (hends.unique hends').2

/-- If the limit passed the caller is told so. -/
theorem Handles.outcome_of_isLate (h : d.Handles service request off ts story)
    (hlate : story.isLate = true) :
    ∃ limit, d.timeout = some limit ∧ story.outcome d request = .failed (lateness limit) [] := by
  cases h with
  | unserved _ | denied _ _ => cases hlate
  | allowed _ _ hruns =>
    cases hruns with
    | @unlimited _ completed halt _ _ _ houtcome
    | @inTime _ _ _ _ _ completed halt _ _ _ _ houtcome =>
      cases halt with
      | waits step => cases houtcome
      | through _ _ | calledOff _ | failed _ _ => cases hlate
    | passed hlimit _ | expired hlimit _ _ _ =>
      exact ⟨_, hlimit, by simp [Story.outcome, Halt.outcome?, hlimit]⟩

/-- What is told to the audit hook after the identifier. -/
def auditsOf (d : Dispatcher) (service : Service) (request : Request) (story : Story) :
    List AuditCall :=
  (story.middle d service request).filterMap HookCall.audit?

/-- Of a run that ends the audit hook is told its completed steps and the one it stops at. -/
theorem auditsOf_of_ended {outcome : Outcome} (h : halt.outcome? completed.length = some outcome) :
    d.auditsOf service request (.ran completed halt) =
      (Engine.completedCalls 0 completed).filterMap HookCall.audit? ++
        (halt.calls completed.length).filterMap HookCall.audit? := by
  rw [auditsOf, Story.middle_of_ended h, Engine.runCalls, List.filterMap_append]

/-- **What an audit hook is told** while a request is handled. -/
theorem Handles.adds_audits {hook : Hook AuditCall} (haudit : d.hooks.audit = some hook)
    (h : d.Handles service request off (states.map (·.world)) story) :
    Activity.Adds (·.world.audits) service (d.handle request service) states
      (.identified (d.idOf service request) :: d.auditsOf service request story) := by
  have hadds := h.adds.filterMap (·.2.audit?)
  rw [Hooks.audits_heard haudit] at hadds
  have hcalls : (story.calls d service request).filterMap HookCall.audit? =
      .identified (d.idOf service request) :: d.auditsOf service request story := by
    simp [Story.calls, auditsOf, endCalls, HookCall.audit?]
  rwa [hcalls] at hadds

/-- What the audit hook is told of a run within the limit is a trail of its steps. -/
theorem RunsWithin.stepTrail (h : d.RunsWithin service request pipeline off ts story)
    (hlate : story.isLate = false) :
    StepTrail 0 pipeline.steps (d.auditsOf service request story) := by
  cases h with
  | unlimited _ hhalts houtcome | inTime _ _ hhalts houtcome =>
    rw [auditsOf, Story.middle_of_ended houtcome]
    exact hhalts.stepTrail houtcome
  | passed _ _ | expired _ _ _ _ => cases hlate

/-- **Where a request failed** can be told from its audit calls, unless it was called off. -/
theorem Handles.failsAt_iff (h : d.Handles service request off ts story)
    (hlate : story.isLate = false) : (story.response d service request).FailsAt index ↔
      EndsWithAnomaly (d.auditsOf service request story) index ∨
        ∃ completed step, completed.length = index ∧ story = .ran completed (.calledOff step) := by
  cases story with
  | late => cases hlate
  | unserved =>
    simp [Response.FailsAt, Story.response, Story.outcome, absence, EndsWithAnomaly, auditsOf,
      Story.middle, Story.isLate]
  | denied =>
    -- The anomaly of a denial is none of a step.
    simp [Response.FailsAt, Story.response, Story.outcome, Failure.denial, EndsWithAnomaly,
      auditsOf, Story.middle, Story.isLate, List.filterMap_cons, HookCall.audit?, denialCall,
        Step.anomalyCall]
  | ran completed halt =>
    cases halt with
    | waits step => cases hlate
    | through value outputs =>
      have hcalls : d.auditsOf service request (.ran completed (.through value outputs)) = _ :=
        auditsOf_of_ended rfl
      simp [Response.FailsAt, Story.response, Story.outcome, Halt.outcome?, hcalls, Halt.calls,
        not_endsWithAnomaly Engine.anomaly_notMem_completedCalls]
    | calledOff step =>
      have hcalls : d.auditsOf service request (.ran completed (.calledOff step)) = _ :=
        auditsOf_of_ended rfl
      simp [Response.FailsAt, Story.response, Story.outcome, Halt.outcome?, hcalls, Halt.calls,
        Failure.ofCancelled, not_endsWithAnomaly Engine.anomaly_notMem_completedCalls]
    | failed step failure =>
      obtain ⟨_, -, -, _, _, _, hhalts⟩ := h.halts
      have hcalls : d.auditsOf service request (.ran completed (.failed step failure)) = _ :=
        auditsOf_of_ended rfl
      simp [Response.FailsAt, Story.response, Story.outcome, Halt.outcome?, hcalls, Halt.calls,
        hhalts.stepIndex_eq, List.filterMap_cons, HookCall.audit?, endsWithAnomaly_concat_iff]

/-- **The trail of a request is well formed.** Let an audit hook listen, and let the handling of a
request end with an answer, but not because the limit passed. The hook is told the identifier of the
answer first, and then nothing more if the route is not served; one anomaly if the caller is denied;
and else a trail of steps. The answer is a failure of the step at an index exactly if the calls end
with the anomaly for that index or the run was called off before that step. -/
theorem audits_of_handle {hook : Hook AuditCall} {s : Service} (haudit : d.hooks.audit = some hook)
    (hends : (d.handle request service).Ends off states s (.ok response))
    (hintime : ∀ limit, d.timeout = some limit → response.outcome ≠ .failed (lateness limit) []) :
    ∃ id calls, response.correlationId = some id ∧
      Activity.Adds (·.world.audits) service (d.handle request service) states
        (.identified id :: calls) ∧
      (asksFor service request = none → calls = []) ∧
      (∀ pipeline, asksFor service request = some pipeline →
        (decides service request).allowed = false →
        ∃ message severity context, calls = [.anomaly message severity context]) ∧
      (∀ pipeline, asksFor service request = some pipeline →
        (decides service request).allowed = true →
        StepTrail 0 pipeline.steps calls) ∧
      ∀ index, response.FailsAt index ↔
        EndsWithAnomaly calls index ∨
          d.CalledOffBefore service request off (states.map (·.world)) index := by
  obtain ⟨story, hstory, rfl⟩ := handle_ends_iff.mp ⟨s, hends⟩
  have hlate : story.isLate = false := by
    rw [Bool.eq_false_iff]
    intro hlate
    obtain ⟨limit, hlimit, houtcome⟩ := hstory.outcome_of_isLate hlate
    exact hintime limit hlimit houtcome
  refine ⟨_, _, rfl, hstory.adds_audits haudit, ?_, ?_, ?_, fun index => ?_⟩
  · intro hasks
    obtain ⟨-, rfl⟩ := (handles_iff_of_unserved hasks).mp hstory
    rfl
  · intro pipeline hasks hdenied
    obtain ⟨-, rfl⟩ := (handles_iff_of_denied hasks hdenied).mp hstory
    exact ⟨_, _, _, rfl⟩
  · intro pipeline hasks hallowed
    exact ((handles_iff_of_allowed hasks hallowed).mp hstory).stepTrail hlate
  · constructor
    · intro hfails
      rcases (hstory.failsAt_iff hlate).mp hfails with hanomaly | ⟨completed, step, hlength, rfl⟩
      · exact .inl hanomaly
      · exact .inr ⟨completed, step, hlength, hstory⟩
    · rintro (hanomaly | ⟨completed, step, hlength, hcalled⟩)
      · exact (hstory.failsAt_iff hlate).mpr (.inl hanomaly)
      · rw [hstory.response_eq hcalled]
        exact (hcalled.failsAt_iff rfl).mpr (.inr ⟨completed, step, hlength, rfl⟩)

/-- A pipeline whose second step fails. -/
def halfwayPipeline : Pipeline where
  route := ⟨"desk", "halfway"⟩
  steps := [⟨"first", "echo", [("value", .literal (.text "answer"))], ""⟩,
    ⟨"second", "fail", [("message", .literal (.text "no more"))], ""⟩]

/-- The service with this pipeline, which everyone may use. -/
def halfwayService : Service where
  table :=
    { pipelines :=
        { pipelines := [(⟨"desk", "halfway"⟩, halfwayPipeline)]
          units := [("echo", some (Units.probe "echo" Units.echo)),
            ("fail", some (Units.probe "fail" Units.failing))] }
      gate := .ofEntries [(⟨"desk", "halfway"⟩, .everyone)] }

/-- A dispatcher with an audit hook that fails at each call. -/
def clumsyDispatcher : Dispatcher where
  hooks := { audit := some { name := fun _ => "audit",
                             failure := fun _ _ => some (.broken "RuntimeError" "no disk") } }
  newId := fun _ => "id"

/-- The answer that it gives. -/
def halfwayResponse : Response where
  outcome := .failed ⟨.stepFailure, "no more", some "second", some 1,
    [(.text "exception_class", .text "RuntimeError")]⟩ []
  correlationId := some "id"

/-- What the trail comes to for the second step that fails. -/
theorem audits_of_handle_halfway :
    ∃ calls, Activity.Adds (·.world.audits) halfwayService
        (clumsyDispatcher.handle { route := ⟨"desk", "halfway"⟩ } halfwayService) []
          (.identified "id" :: calls) ∧
      StepTrail 0 halfwayPipeline.steps calls ∧
      (EndsWithAnomaly calls 1 ∨
        clumsyDispatcher.CalledOffBefore halfwayService
          { route := ⟨"desk", "halfway"⟩ } false [] 1) := by
  have hover : ∃ s, clumsyDispatcher.handle { route := ⟨"desk", "halfway"⟩ } halfwayService =
      .done s (.ok halfwayResponse) := ⟨_, rfl⟩
  obtain ⟨s, hs⟩ := hover
  have hends : (clumsyDispatcher.handle { route := ⟨"desk", "halfway"⟩ } halfwayService).Ends false
      [] s (.ok halfwayResponse) := by
    rw [hs]
    exact .done _ _
  obtain ⟨id, calls, hid, hadds, -, -, htrail, hfails⟩ := audits_of_handle rfl hends fun _ h => by
    cases h
  obtain rfl := Option.some.inj hid
  exact ⟨calls, hadds, htrail halfwayPipeline rfl rfl, (hfails 1).mp ⟨_, _, rfl, rfl⟩⟩

end Dispatcher

end Switchyard
