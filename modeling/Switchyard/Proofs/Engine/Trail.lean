import Switchyard.Listener
import Switchyard.Proofs.Activity.Share
import Switchyard.Proofs.Engine.History

/-!
# What a run tells

A run tells the hooks about every step that starts, and how it ended. What it tells is decided by
what the run comes to: three calls for each step that it has completed, and then those for the
step that it stops at.

Main statements: a run adds the calls of what it comes to to the trail (`Halts.adds`), and whatever
it does it only adds (`run_grows`).
-/

namespace Switchyard

/-! ## §1 Listening -/

namespace Hooks

variable {hooks : Hooks} {number : Nat} {calls more : List HookCall}

/-- Whether somebody listens to a call. -/
def hears (hooks : Hooks) : HookCall → Bool
  | .audit _ => hooks.audit.isSome
  | .metric _ => hooks.metrics.isSome

/-- What comes on the trail of the calls that an invocation makes: those that somebody listens
to, with its number. -/
def heard (hooks : Hooks) (number : Nat) (calls : List HookCall) : List (Nat × HookCall) :=
  (calls.filter hooks.hears).map (number, ·)

@[simp] theorem heard_append :
    hooks.heard number (calls ++ more) = hooks.heard number calls ++ hooks.heard number more := by
  simp [heard]

/-- An audit hook hears all of its calls. -/
theorem audits_heard {hook : Hook AuditCall} (h : hooks.audit = some hook) :
    (hooks.heard number calls).filterMap (·.2.audit?) = calls.filterMap HookCall.audit? := by
  rw [heard, List.filterMap_map, List.filterMap_filter]
  apply List.filterMap_congr
  intro call _
  cases call with
  | audit call => simp [hears, h]
  | metric sample => simp [HookCall.audit?]

/-- A metrics hook hears all of its samples. -/
theorem samples_heard {hook : Hook Sample} (h : hooks.metrics = some hook) :
    (hooks.heard number calls).filterMap (·.2.sample?) = calls.filterMap HookCall.sample? := by
  rw [heard, List.filterMap_map, List.filterMap_filter]
  apply List.filterMap_congr
  intro call _
  cases call with
  | audit call => simp [HookCall.sample?]
  | metric sample => simp [hears, h]

end Hooks

namespace World

variable {w : World} {hooks : Hooks} {number : Nat}

@[simp] theorem audit_trail {call : AuditCall} :
    (w.audit hooks number call).trail = w.trail ++ hooks.heard number [.audit call] := by
  unfold audit
  split <;> rename_i h <;> simp [Hooks.heard, Hooks.hears, h, called]

@[simp] theorem measure_trail {sample : Sample} :
    (w.measure hooks number sample).trail = w.trail ++ hooks.heard number [.metric sample] := by
  unfold measure
  split <;> rename_i h <;> simp [Hooks.heard, Hooks.hears, h, called]

@[simp] theorem withStore_trail {σ : Store} : (w.withStore σ).trail = w.trail := rfl

end World

/-! ## §2 Calls of a run -/

namespace Step

/-- The calls for a step that is completed. -/
def calls (step : Step) (index : Nat) : List HookCall :=
  [.audit (step.startCall index), .audit (step.endCall (index + 1)), .metric step.durationSample]

end Step

/-- The calls for the step that a run stops at. A run that is called off before a step
tells nothing of it. -/
def Halt.calls (index : Nat) : Halt → List HookCall
  | .through _ _ | .calledOff _ => []
  | .failed step failure =>
    [.audit (step.startCall index), .audit (step.anomalyCall index failure),
      .metric (step.failureSample failure)]
  | .waits step => [.audit (step.startCall index)]

namespace Engine

/-- The calls for steps that are completed, the first of which is at `index`. -/
def completedCalls (index : Nat) (steps : List Step) : List HookCall :=
  (steps.zipIdx index).flatMap fun (step, place) => step.calls place

/-- **The calls of a run** that completes some steps and then stops. -/
def runCalls (completed : List Step) (halt : Halt) : List HookCall :=
  completedCalls 0 completed ++ halt.calls completed.length

theorem completedCalls_concat {steps : List Step} {step : Step} :
    completedCalls 0 (steps ++ [step]) = completedCalls 0 steps ++ step.calls steps.length := by
  simp [completedCalls, List.zipIdx_append]

variable {engine : Engine} {pipeline : Pipeline} {invocation : Invocation} {off : Bool}
  {w u v : World} {ts us during : List World} {past : List PastCall} {step : Step}
  {rest : List Step} {scope scope' : Scope} {index : Nat} {failure : Failure}
  {more : List (Nat × HookCall)} {number : Nat}

/-! ## §3 What a step adds -/

/-- A unit tells the hooks nothing, neither if it answers nor if it waits. -/
theorem act_adds_nil {call : Call} (h : (World.act call w).HasTurns ts) :
    Activity.Adds World.trail w (World.act call w) ts [] :=
  Activity.adds_nil_within (fun _ _ => rfl) h

/-- An error that is told as a failure adds its anomaly and its sample. -/
theorem endWithError_adds {e : Raised} (h : failureAt step index e = .ok failure) :
    Activity.Adds World.trail v (engine.endWithError number step index e v) []
      (engine.hooks.heard number [.audit (step.anomalyCall index failure),
        .metric (step.failureSample failure)]) := by
  rw [endWithError, h]
  apply Activity.Adds.first
  show (engine.reportFailure number step index failure v).trail = _
  rw [reportFailure, World.measure_trail, World.audit_trail, List.append_assoc,
    ← Hooks.heard_append]
  rfl

/-- An output that is recorded adds the end of its step and how long that took. -/
theorem endWithOutput_adds {output : Value}
    (h : engine.endWithOutput number step scope output v = .done u (.recorded scope')) :
    Activity.Adds World.trail v (engine.endWithOutput number step scope output v) []
      (engine.hooks.heard number
        [.audit (step.endCall (List.length scope.outputs + 1)), .metric step.durationSample]) := by
  have houtputs : List.length scope'.outputs = List.length scope.outputs + 1 := by
    rw [outputs_of_endWithOutput h, List.length_append]
    rfl
  rw [← houtputs]
  unfold endWithOutput at h ⊢
  split at h
  · obtain ⟨-, hended⟩ := Activity.done.inj h
    obtain rfl := StepEnd.recorded.inj hended
    apply Activity.Adds.first
    show (engine.reportEnd number step (List.length _) (v.withStore _)).trail = _
    rw [reportEnd, World.measure_trail, World.audit_trail, List.append_assoc, ← Hooks.heard_append]
    rfl
  · cases (Activity.done.inj h).2

/-- A step whose unit answers adds its start and what its end adds. -/
theorem runStep_adds_of_answered {config : Value} {σ : Store} {answer : Except Raised Value}
    {own : List HookCall}
    (hresolve : Binding.resolveRecord scope.context step.bindings w.store = .ok (config, σ))
    (hact : (World.act (engine.work step config (.invocation scope invocation.signal))
      ((engine.announce invocation.number step index w).withStore σ)).Ends off ts v answer)
    (hend : Activity.Adds World.trail v
      (engine.endWith invocation.number step index scope v answer) []
      (engine.hooks.heard invocation.number own)) :
    Activity.Adds World.trail w (engine.runStep invocation step index scope w) ts
      (engine.hooks.heard invocation.number (.audit (step.startCall index) :: own)) := by
  have hstep : Activity.Adds World.trail _ ((World.act _ _).bind fun w answer =>
      engine.endWith invocation.number step index scope w answer) _ _ :=
    (act_adds_nil hact.hasTurns).bind hact hend
  rw [List.append_nil, List.nil_append] at hstep
  rw [runStep_resolved hresolve, ← List.singleton_append, Hooks.heard_append]
  apply hstep.of_earlier
  exact World.audit_trail

/-- **A step that is completed** adds its start, its end and how long it took. -/
theorem runStep_adds_of_recorded {config output : Value} {σ : Store}
    (hindex : List.length scope.outputs = index)
    (hresolve : Binding.resolveRecord scope.context step.bindings w.store = .ok (config, σ))
    (hact : (World.act (engine.work step config (.invocation scope invocation.signal))
      ((engine.announce invocation.number step index w).withStore σ)).Ends off ts v (.ok output))
    (hend : engine.endWithOutput invocation.number step scope output v =
      .done u (.recorded scope')) :
    Activity.Adds World.trail w (engine.runStep invocation step index scope w) ts
      (engine.hooks.heard invocation.number (step.calls index)) := by
  subst hindex
  exact runStep_adds_of_answered hresolve hact (endWithOutput_adds hend)

/-- **A step that fails** adds its start, its anomaly and its sample. -/
theorem StepFails.adds (h : engine.StepFails invocation off step index scope w ts failure) :
    Activity.Adds World.trail w (engine.runStep invocation step index scope w) ts
      (engine.hooks.heard invocation.number ((Halt.failed step failure).calls index)) := by
  cases h with
  | unresolved hresolve htold =>
    rw [runStep_unresolved hresolve, Halt.calls, ← List.singleton_append, Hooks.heard_append]
    apply (endWithError_adds htold).of_earlier
    exact World.audit_trail
  | raised hresolve hact htold =>
    exact runStep_adds_of_answered hresolve hact (endWithError_adds htold)

/-- **A step that waits** has added its start. -/
theorem StepWaits.adds (h : engine.StepWaits invocation step index scope w ts) :
    Activity.Adds World.trail w (engine.runStep invocation step index scope w) ts
      (engine.hooks.heard invocation.number ((Halt.waits step).calls index)) := by
  obtain ⟨config, σ, hresolve, hwaits⟩ := h
  rw [runStep_resolved hresolve, Halt.calls, ← List.append_nil (Hooks.heard _ _ _)]
  apply ((act_adds_nil hwaits.hasTurns).bind_of_waits hwaits).of_earlier
  exact World.audit_trail

/-! ## §4 What a run adds -/

/-- A run that has come to a step has added the calls of the steps before, and adds what the
steps that are left add. -/
theorem Reaches.adds (h : engine.Reaches pipeline invocation off w ts past rest scope u)
    (hmore : Activity.Adds World.trail u
      (engine.runSteps invocation pipeline past.length rest scope u) us more) :
    Activity.Adds World.trail w (engine.run pipeline invocation w) (ts ++ us)
      (engine.hooks.heard invocation.number (completedCalls 0 (past.map (·.step))) ++ more) := by
  induction h generalizing us more with
  | @start scope σ hstart =>
    have hbegun : (w.withStore σ).trail = w.trail ++ [] := (List.append_nil w.trail).symm
    rw [run, hstart]
    exact hmore.of_earlier hbegun
  | @next ts before past step rest scope scope' u v u' config output σ hreached hcalm hresolve
    hact hend ih =>
    -- Each step before has one output, so the outputs count the steps.
    have hlength : List.length scope.outputs = past.length := by
      rw [hreached.outputs_eq, PastCall.outputs, List.length_map]
    have hstep : (engine.runStep invocation step past.length scope u).Ends off before u'
        (.recorded scope') :=
      runStep_recorded_iff.mpr ⟨config, σ, v, output, hresolve, hact, hend⟩
    rw [List.append_assoc, List.map_append, List.map_singleton, completedCalls_concat,
      List.length_map, Hooks.heard_append, List.append_assoc]
    apply ih
    rw [runSteps, hcalm]
    exact (runStep_adds_of_recorded hlength hresolve hact hend).bind hstep (by simpa using hmore)

/-- **What a run adds** to the trail are the calls of what it comes to. -/
theorem Halts.adds {completed : List Step} {halt : Halt}
    (h : engine.Halts pipeline invocation off w ts completed halt) :
    Activity.Adds World.trail w (engine.run pipeline invocation w) ts
      (engine.hooks.heard invocation.number (runCalls completed halt)) := by
  rw [runCalls, Hooks.heard_append]
  cases h with
  | through hreached hanswer =>
    rw [← List.append_nil ts]
    exact hreached.adds (.first (List.append_nil _).symm)
  | @calledOff _ past step rest scope u hreached hoff =>
    have hgiven : u.surroundings.isGiven invocation.signal = true := hoff
    rw [← List.append_nil ts]
    apply hreached.adds
    rw [runSteps, if_pos hgiven]
    exact .first (List.append_nil _).symm
  | @failed ts during past step rest scope u failure hreached hcalm hfails =>
    obtain ⟨v, hstep⟩ := runStep_failed_iff.mpr hfails
    apply hreached.adds
    rw [runSteps, Invocation.not_isOff_iff.mp hcalm, List.length_map, ← List.append_nil during]
    rw [← List.append_nil (Hooks.heard _ _ _)]
    exact hfails.adds.bind hstep (.first (List.append_nil _).symm)
  | @waits ts during past step rest scope u hreached hcalm hwaits =>
    apply hreached.adds
    rw [runSteps, Invocation.not_isOff_iff.mp hcalm, List.length_map]
    exact hwaits.adds.bind_of_waits (runStep_waits_iff.mpr hwaits)

/-! ## §5 Growth -/

/-- Telling something only adds to the trail. -/
theorem grows_endWith {answer : Except Raised Value} :
    Activity.Grows World.trail w (engine.endWith number step index scope w answer) := by
  cases answer with
  | error e =>
    rw [endWith, endWithError]
    split
    · show w.trail <+: (engine.reportFailure number step index _ w).trail
      simp [reportFailure]
    · exact List.prefix_rfl
  | ok output =>
    rw [endWith, endWithOutput]
    split
    · show w.trail <+: (engine.reportEnd number step _ (w.withStore _)).trail
      simp [reportEnd]
    · exact List.prefix_rfl

theorem grows_runStep :
    Activity.Grows World.trail w (engine.runStep invocation step index scope w) := by
  have hannounce : w.trail <+: (engine.announce invocation.number step index w).trail := by
    simp [announce]
  cases hresolve : Binding.resolveRecord scope.context step.bindings w.store with
  | error problem =>
    have hend : Activity.Grows World.trail _ (engine.endWith invocation.number step index scope
        (engine.announce invocation.number step index w) (.error problem.raised)) := grows_endWith
    rw [runStep_unresolved hresolve]
    exact .of_earlier hannounce hend
  | ok resolved =>
    obtain ⟨config, σ⟩ := resolved
    rw [runStep_resolved hresolve]
    refine .bind
      (.of_earlier (t := (engine.announce invocation.number step index w).withStore σ) hannounce ?_)
      fun _ _ => grows_endWith
    exact Activity.grows_within_of_outside fun _ _ => rfl

theorem grows_runSteps {steps : List Step} :
    Activity.Grows World.trail w (engine.runSteps invocation pipeline index steps scope w) := by
  induction steps generalizing index scope w with
  | nil => exact List.prefix_rfl
  | cons step rest ih =>
    rw [runSteps]
    split_ifs
    · exact List.prefix_rfl
    · refine .bind grows_runStep fun u ended => ?_
      cases ended with
      | recorded scope' => exact ih
      | failed failure => exact List.prefix_rfl
      | escaped e => exact List.prefix_rfl

/-- **A run only adds** to the trail, whatever it comes to. -/
theorem run_grows : Activity.Grows World.trail w (engine.run pipeline invocation w) := by
  rcases hstart : Scope.start invocation.input invocation.claims invocation.correlationId w.store
      with ⟨scope, σ⟩
  rw [run, hstart]
  exact Activity.Grows.of_earlier (t := w.withStore σ) List.prefix_rfl grows_runSteps

end Engine

end Switchyard
