import Switchyard.Proofs.Engine.CallingOff

/-!
# What a run comes to

A run completes some of its steps, in order, and then it stops: all steps are completed, it has been
called off before the next one, the next one fails, or its unit waits. Which of these it is does not
depend on what is told to anybody.

Main statements: a run ends with an outcome exactly if it comes to a halt that has this outcome
(`run_ends_iff`), and it waits exactly if it comes to a unit that waits (`run_waits_iff`).
-/

namespace Switchyard

/-! ## §1 Halts -/

/-- Where a run stops, once it has completed some steps. -/
inductive Halt
  /-- All steps are completed. -/
  | through (value : Value) (outputs : Outputs)
  /-- The run has been called off before the step. -/
  | calledOff (step : Step)
  /-- The bindings of the step do not resolve, or its unit raises an error. -/
  | failed (step : Step) (failure : Failure)
  /-- The unit of the step waits. -/
  | waits (step : Step)

/-- The outcome of a run that stops before or at the step with the given index, unless it waits. -/
def Halt.outcome? (index : Nat) : Halt → Option Outcome
  | .through value outputs => some (.success value outputs)
  | .calledOff step => some (.failed (.ofCancelled step index) [])
  | .failed _ failure => some (.failed failure [])
  | .waits _ => none

namespace Engine

/-- **A step fails**: its bindings do not resolve, or its unit raises an error; and that is
told as the failure. -/
inductive StepFails (engine : Engine) (invocation : Invocation) (off : Bool) (step : Step)
    (index : Nat) (scope : Scope) (w : World) : List World → Failure → Prop
  | unresolved {problem : Expression.EvalProblem} {failure : Failure} :
      Binding.resolveRecord scope.context step.bindings w.store = .error problem →
      failureAt step index problem.raised = .ok failure →
      StepFails engine invocation off step index scope w [] failure
  | raised {config : Value} {σ : Store} {ts : List World} {v : World} {e : Raised}
      {failure : Failure} :
      Binding.resolveRecord scope.context step.bindings w.store = .ok (config, σ) →
      (World.act (engine.work step config (.invocation scope invocation.signal))
        ((engine.announce invocation.number step index w).withStore σ)).Ends off ts v (.error e) →
      failureAt step index e = .ok failure →
      StepFails engine invocation off step index scope w ts failure

/-- **The unit of a step waits** when it has been resumed in the given states. -/
def StepWaits (engine : Engine) (invocation : Invocation) (step : Step) (index : Nat)
    (scope : Scope) (w : World) (ts : List World) : Prop :=
  ∃ config σ, Binding.resolveRecord scope.context step.bindings w.store = .ok (config, σ) ∧
    (World.act (engine.work step config (.invocation scope invocation.signal))
      ((engine.announce invocation.number step index w).withStore σ)).Waits ts

/-- **What a run comes to** when it has been resumed in the given states: the steps that it has
completed, and where it stops. -/
inductive Halts (engine : Engine) (pipeline : Pipeline) (invocation : Invocation)
    (off : Bool) (w : World) : List World → List Step → Halt → Prop
  | through {ts : List World} {past : List PastCall} {scope : Scope} {u : World} {value : Value} :
      engine.Reaches pipeline invocation off w ts past [] scope u →
      answerOf pipeline scope = .ok value →
      Halts engine pipeline invocation off w ts (past.map (·.step)) (.through value scope.outputs)
  | calledOff {ts : List World} {past : List PastCall} {step : Step} {rest : List Step}
      {scope : Scope} {u : World} :
      engine.Reaches pipeline invocation off w ts past (step :: rest) scope u →
      invocation.IsOff u →
      Halts engine pipeline invocation off w ts (past.map (·.step)) (.calledOff step)
  | failed {ts during : List World} {past : List PastCall} {step : Step} {rest : List Step}
      {scope : Scope} {u : World} {failure : Failure} :
      engine.Reaches pipeline invocation off w ts past (step :: rest) scope u →
      ¬ invocation.IsOff u →
      engine.StepFails invocation off step past.length scope u during failure →
      Halts engine pipeline invocation off w (ts ++ during) (past.map (·.step))
        (.failed step failure)
  | waits {ts during : List World} {past : List PastCall} {step : Step} {rest : List Step}
      {scope : Scope} {u : World} :
      engine.Reaches pipeline invocation off w ts past (step :: rest) scope u →
      ¬ invocation.IsOff u →
      engine.StepWaits invocation step past.length scope u during →
      Halts engine pipeline invocation off w (ts ++ during) (past.map (·.step)) (.waits step)

variable {engine : Engine} {pipeline : Pipeline} {invocation : Invocation} {off : Bool}
  {w u v : World} {ts us during : List World} {past : List PastCall} {step : Step}
  {rest : List Step} {scope : Scope} {index : Nat} {failure : Failure}

/-! ## §2 One step -/

/-- An error ends a step with the failure that it is told as. -/
theorem endWithError_failed_iff {number : Nat} {e : Raised} :
    (engine.endWithError number step index e v).Ends off ts u (.failed failure) ↔
      ts = [] ∧ failureAt step index e = .ok failure ∧
        u = engine.reportFailure number step index failure v := by
  rw [endWithError_ends_iff]
  constructor
  · rintro ⟨hts, ⟨told, htold, hu, hended⟩ | ⟨_, -, -, hended⟩⟩
    · obtain rfl := StepEnd.failed.inj hended
      exact ⟨hts, htold, hu⟩
    · cases hended
  · rintro ⟨hts, htold, hu⟩
    exact ⟨hts, .inl ⟨failure, htold, hu, rfl⟩⟩

/-- An output ends no step with a failure. -/
theorem endWithOutput_not_failed {number : Nat} {output : Value} :
    ¬ (engine.endWithOutput number step scope output v).Ends off ts u (.failed failure) := by
  intro h
  rw [endWithOutput] at h
  split at h
  · cases (Activity.ends_done_iff.mp h).2.2
  · cases (Activity.ends_done_iff.mp h).2.2

/-- **A step ends with a failure** exactly if it fails so. -/
theorem runStep_failed_iff :
    (∃ u, (engine.runStep invocation step index scope w).Ends off ts u (.failed failure)) ↔
      engine.StepFails invocation off step index scope w ts failure := by
  constructor
  · rintro ⟨u, h⟩
    rcases runStep_ends_iff.mp h
        with ⟨problem, hresolve, hend⟩ | ⟨config, σ, v, answer, hresolve, hact, hend⟩
    · obtain ⟨rfl, htold, -⟩ := endWithError_failed_iff.mp hend
      exact .unresolved hresolve htold
    · cases answer with
      | error e => exact .raised hresolve hact (endWithError_failed_iff.mp hend).2.1
      | ok output => exact absurd hend endWithOutput_not_failed
  · intro h
    cases h with
    | unresolved hresolve htold =>
      exact ⟨_, runStep_ends_iff.mpr
        (.inl ⟨_, hresolve, endWithError_failed_iff.mpr ⟨rfl, htold, rfl⟩⟩)⟩
    | raised hresolve hact htold =>
      exact ⟨_, runStep_ends_iff.mpr
        (.inr ⟨_, _, _, _, hresolve, hact, endWithError_failed_iff.mpr ⟨rfl, htold, rfl⟩⟩)⟩

/-- Ending a step takes no wait. -/
theorem endWith_not_waits {number : Nat} {answer : Except Raised Value} :
    ¬ (engine.endWith number step index scope v answer).Waits ts := by
  intro h
  cases answer with
  | error e =>
    rw [endWith, endWithError] at h
    split at h <;> cases h
  | ok output =>
    rw [endWith, endWithOutput] at h
    split at h <;> cases h

/-- **A step waits** exactly if its unit does. -/
theorem runStep_waits_iff :
    (engine.runStep invocation step index scope w).Waits ts ↔
      engine.StepWaits invocation step index scope w ts := by
  constructor
  · intro h
    cases hresolve : Binding.resolveRecord scope.context step.bindings w.store with
    | error problem =>
      rw [runStep_unresolved hresolve] at h
      exact absurd (show (engine.endWith _ step index scope _ (.error problem.raised)).Waits ts from
        h) endWith_not_waits
    | ok resolved =>
      obtain ⟨config, σ⟩ := resolved
      rw [runStep_resolved hresolve] at h
      rcases Activity.waits_bind_iff.mp h with hwaits | ⟨_, _, _, _, -, -, hwaits⟩
      · exact ⟨config, σ, hresolve, hwaits⟩
      · exact absurd hwaits endWith_not_waits
  · rintro ⟨config, σ, hresolve, hwaits⟩
    rw [runStep_resolved hresolve]
    exact Activity.waits_bind_iff.mpr (.inl hwaits)

/-! ## §3 The way to a step -/

/-- What the steps that are left come to is what the run comes to. -/
theorem Reaches.ends {r : Except Raised Outcome}
    (h : engine.Reaches pipeline invocation off w ts past rest scope u)
    (hend : (engine.runSteps invocation pipeline past.length rest scope u).Ends off us v r) :
    (engine.run pipeline invocation w).Ends off (ts ++ us) v r := by
  induction h generalizing us with
  | start hstart =>
    rw [run, hstart]
    exact hend
  | next _ hcalm hresolve hact hrecorded ih =>
    rw [List.append_assoc]
    apply ih
    rw [runSteps, hcalm]
    exact Activity.ends_bind_iff.mpr ⟨_, _, _, _, rfl,
      runStep_recorded_iff.mpr ⟨_, _, _, _, hresolve, hact, hrecorded⟩, by simpa using hend⟩

/-- If the steps that are left come to a wait, so does the run. -/
theorem Reaches.waits (h : engine.Reaches pipeline invocation false w ts past rest scope u)
    (hwaits : (engine.runSteps invocation pipeline past.length rest scope u).Waits us) :
    (engine.run pipeline invocation w).Waits (ts ++ us) := by
  induction h generalizing us with
  | start hstart =>
    rw [run, hstart]
    exact hwaits
  | next _ hcalm hresolve hact hrecorded ih =>
    rw [List.append_assoc]
    apply ih
    rw [runSteps, hcalm]
    exact Activity.waits_bind_iff.mpr (.inr ⟨_, _, _, _, rfl,
      runStep_recorded_iff.mpr ⟨_, _, _, _, hresolve, hact, hrecorded⟩, by simpa using hwaits⟩)

/-! ## §4 Runs -/

/-- The steps that are left come to an outcome by a halt that has it. -/
theorem Reaches.halts {outcome : Outcome}
    (h : engine.Reaches pipeline invocation off w ts past rest scope u)
    (hend : (engine.runSteps invocation pipeline past.length rest scope u).Ends off us v
      (.ok outcome)) :
    ∃ completed halt, engine.Halts pipeline invocation off w (ts ++ us) completed halt ∧
      halt.outcome? completed.length = some outcome := by
  -- The induction is on the steps that are left; each that ends well brings the run to the next.
  induction rest generalizing ts us past scope u with
  | nil =>
    obtain ⟨rfl, -, hended⟩ := Activity.ends_done_iff.mp hend
    cases hanswer : answerOf pipeline scope with
    | error e =>
      rw [hanswer] at hended
      cases hended
    | ok value =>
      rw [hanswer] at hended
      refine ⟨past.map (·.step), .through value scope.outputs, ?_,
        congrArg some (Except.ok.inj hended).symm⟩
      rw [List.append_nil]
      exact .through h hanswer
  | cons step rest ih =>
    rw [runSteps] at hend
    split_ifs at hend with hgiven
    · obtain ⟨rfl, -, hended⟩ := Activity.ends_done_iff.mp hend
      refine ⟨past.map (·.step), .calledOff step, ?_, ?_⟩
      · rw [List.append_nil]
        exact .calledOff h hgiven
      · rw [List.length_map]
        exact congrArg some (Except.ok.inj hended).symm
    · obtain ⟨before, after, v', ended, rfl, hstep, hrest⟩ := Activity.ends_bind_iff.mp hend
      cases ended with
      | recorded scope' =>
        obtain ⟨call, hnext⟩ := h.next_of_recorded hgiven hstep
        rw [← List.append_assoc]
        exact ih hnext (by simpa using hrest)
      | failed failure =>
        obtain ⟨rfl, -, hended⟩ := Activity.ends_done_iff.mp hrest
        rw [List.append_nil]
        exact ⟨_, _, .failed h hgiven (runStep_failed_iff.mp ⟨_, hstep⟩),
          congrArg some (Except.ok.inj hended).symm⟩
      | escaped e => cases (Activity.ends_done_iff.mp hrest).2.2

/-- The steps that are left come to a wait by the unit of one of them. -/
theorem Reaches.halts_of_waits (h : engine.Reaches pipeline invocation false w ts past rest scope u)
    (hwaits : (engine.runSteps invocation pipeline past.length rest scope u).Waits us) :
    ∃ completed step, engine.Halts pipeline invocation false w (ts ++ us) completed
      (.waits step) := by
  induction rest generalizing ts us past scope u with
  | nil => cases hwaits
  | cons step rest ih =>
    rw [runSteps] at hwaits
    split_ifs at hwaits with hgiven
    · cases hwaits
    · rcases Activity.waits_bind_iff.mp hwaits
          with hstep | ⟨before, after, v', ended, rfl, hstep, hrest⟩
      · exact ⟨_, step, .waits h hgiven (runStep_waits_iff.mp hstep)⟩
      · cases ended with
        | recorded scope' =>
          obtain ⟨call, hnext⟩ := h.next_of_recorded hgiven hstep
          rw [← List.append_assoc]
          exact ih hnext (by simpa using hrest)
        | failed failure => cases hrest
        | escaped e => cases hrest

/-- **A run ends with an outcome** exactly if it comes to a halt that has this outcome. -/
theorem run_ends_iff {outcome : Outcome} :
    (∃ v, (engine.run pipeline invocation w).Ends off ts v (.ok outcome)) ↔
      ∃ completed halt, engine.Halts pipeline invocation off w ts completed halt ∧
        halt.outcome? completed.length = some outcome := by
  constructor
  · rintro ⟨v, h⟩
    exact Reaches.halts (.start rfl) h
  · rintro ⟨completed, halt, h, houtcome⟩
    cases h with
    | @through _ past scope u value hreached hanswer =>
      obtain rfl := Option.some.inj houtcome
      rw [← List.append_nil ts]
      refine ⟨u, hreached.ends ?_⟩
      rw [runSteps, hanswer]
      exact .done _ _
    | @calledOff _ past step rest scope u hreached hoff =>
      obtain rfl := Option.some.inj houtcome
      rw [← List.append_nil ts]
      have hgiven : u.surroundings.isGiven invocation.signal = true := hoff
      refine ⟨u, hreached.ends ?_⟩
      rw [runSteps, if_pos hgiven, List.length_map]
      exact .done _ _
    | failed hreached hcalm hfails =>
      obtain rfl := Option.some.inj houtcome
      obtain ⟨v, hstep⟩ := runStep_failed_iff.mpr hfails
      refine ⟨v, hreached.ends ?_⟩
      rw [runSteps, Invocation.not_isOff_iff.mp hcalm]
      exact Activity.ends_bind_iff.mpr ⟨_, [], v, _, (List.append_nil _).symm, hstep, .done _ _⟩
    | waits _ _ _ => cases houtcome

/-- **A run waits** exactly if it comes to a unit that waits. -/
theorem run_waits_iff :
    (engine.run pipeline invocation w).Waits ts ↔
      ∃ completed step, engine.Halts pipeline invocation false w ts completed (.waits step) := by
  constructor
  · exact Reaches.halts_of_waits (.start rfl)
  · rintro ⟨completed, step, h⟩
    cases h with
    | waits hreached hcalm hwaits =>
      apply hreached.waits
      rw [runSteps, Invocation.not_isOff_iff.mp hcalm]
      exact Activity.waits_bind_iff.mpr (.inl (runStep_waits_iff.mpr hwaits))

end Engine

end Switchyard
