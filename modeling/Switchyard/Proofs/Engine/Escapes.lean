import Switchyard.Proofs.Activity.Ends
import Switchyard.Proofs.Engine.Frame
import Switchyard.Proofs.Failure.Telling
import Switchyard.Proofs.Pipeline.Checked

/-!
# What escapes a run

A run tells the error of a step as a failure if it can be told. Of everything that a run comes
to, only what a unit raises can be such that it cannot: bindings fail with errors that can be
told, and in a pipeline whose steps have different names every output can be recorded and the
designated one is there.

Main statement: an error escapes a run exactly if a unit on the way raises one that cannot be told
(`runSteps_escapes_iff`).
-/

namespace Switchyard.Engine

variable {engine : Engine} {invocation : Invocation} {off : Bool} {index : Nat} {step : Step}
  {scope : Scope} {w u : World} {ts : List World} {e e' : Raised}

/-! ## §1 Raising -/

/-- **A unit raises** an error while steps are run, the first of which is at `index`: the run is
resumed in the given worlds, the steps before it end well, and then the unit of the step at `place`
is called and raises it. -/
inductive Raises (engine : Engine) (invocation : Invocation) (off : Bool) :
    (index : Nat) → List Step → Scope → World → List World → (place : Nat) → Step → Raised → Prop
  | here {index : Nat} {step : Step} {rest : List Step} {scope : Scope} {w u : World}
      {ts : List World} {config : Value} {σ : Store} {e : Raised} :
      w.surroundings.isGiven invocation.signal = false →
      Binding.resolveRecord scope.context step.bindings w.store = .ok (config, σ) →
      (World.act (engine.work step config (.invocation scope invocation.signal))
        ((engine.announce invocation.number step index w).withStore σ)).Ends off ts u (.error e) →
      Raises engine invocation off index (step :: rest) scope w ts index step e
  | later {index place : Nat} {step step' : Step} {rest : List Step}
      {scope scope' : Scope} {w u : World} {before after : List World} {e : Raised} :
      w.surroundings.isGiven invocation.signal = false →
      (engine.runStep invocation step index scope w).Ends off before u (.recorded scope') →
      Raises engine invocation off (index + 1) rest scope' u after place step' e →
      Raises engine invocation off index (step :: rest) scope w (before ++ after) place step' e

/-! ## §2 One step -/

/-- An error ends a step at once: with its failure if it can be told, and else it escapes. -/
theorem endWithError_ends_iff {number : Nat} {ended : StepEnd} :
    (engine.endWithError number step index e w).Ends off ts u ended ↔
      ts = [] ∧ ((∃ failure, failureAt step index e = .ok failure ∧
          u = engine.reportFailure number step index failure w ∧ ended = .failed failure) ∨
        ∃ e', failureAt step index e = .error e' ∧ u = w ∧ ended = .escaped e') := by
  unfold endWithError
  cases failureAt step index e <;> simp

/-- An error does not end a step well. -/
theorem endWithError_not_recorded {number : Nat} {scope' : Scope} :
    ¬ (engine.endWithError number step index e w).Ends off ts u (.recorded scope') := by
  rw [endWithError_ends_iff]
  rintro ⟨-, ⟨_, -, -, hended⟩ | ⟨_, -, -, hended⟩⟩
  · cases hended
  · cases hended

/-- An error escapes a step exactly if it cannot be told, and in the form that its
failure has instead. -/
theorem endWithError_escapes_iff {number : Nat} :
    (engine.endWithError number step index e w).Ends off ts u (.escaped e') ↔
      ts = [] ∧ failureAt step index e = .error e' ∧ u = w := by
  rw [endWithError_ends_iff]
  constructor
  · rintro ⟨hts, ⟨_, -, -, hended⟩ | ⟨e'', herror, hu, hended⟩⟩
    · cases hended
    · obtain rfl := StepEnd.escaped.inj hended
      exact ⟨hts, herror, hu⟩
  · rintro ⟨hts, herror, hu⟩
    exact ⟨hts, .inr ⟨e', herror, hu, rfl⟩⟩

/-- An output ends a step well if its step has none yet. -/
theorem endWithOutput_ends {number : Nat} {output : Value} {ended : StepEnd}
    (hnew : step.name ∉ scope.outputs.names)
    (h : (engine.endWithOutput number step scope output w).Ends off ts u ended) :
    ∃ scope', scope'.outputs = scope.outputs ++ [(step.name, output)] ∧
      ended = .recorded scope' := by
  obtain ⟨scope', σ, hrecord, houtputs⟩ := Scope.record_of_new hnew output w.store
  rw [endWithOutput, hrecord] at h
  obtain ⟨-, -, hended⟩ := Activity.ends_done_iff.mp h
  exact ⟨scope', houtputs, hended⟩

/-- Ending a step takes no turn. -/
theorem endWith_ends_nil {number : Nat} {answer : Except Raised Value} {ended : StepEnd}
    (h : (engine.endWith number step index scope w answer).Ends off ts u ended) : ts = [] := by
  cases answer with
  | error e => exact (endWithError_ends_iff.mp h).1
  | ok output =>
    rw [endWith, endWithOutput] at h
    split at h
    · exact (Activity.ends_done_iff.mp h).1
    · exact (Activity.ends_done_iff.mp h).1

/-- **How a step goes**: its bindings fail to resolve and it ends with that, or its unit is called
and it ends with what the unit answers. -/
theorem runStep_ends_iff {ended : StepEnd} :
    (engine.runStep invocation step index scope w).Ends off ts u ended ↔
      (∃ problem, Binding.resolveRecord scope.context step.bindings w.store = .error problem ∧
        (engine.endWithError invocation.number step index problem.raised
          (engine.announce invocation.number step index w)).Ends off ts u ended) ∨
      ∃ config σ v answer, Binding.resolveRecord scope.context step.bindings w.store =
        .ok (config, σ) ∧
        (World.act (engine.work step config (.invocation scope invocation.signal))
          ((engine.announce invocation.number step index w).withStore σ)).Ends off ts v answer ∧
        (engine.endWith invocation.number step index scope v answer).Ends off [] u ended := by
  constructor
  · intro h
    cases hresolve : Binding.resolveRecord scope.context step.bindings w.store with
    | error problem =>
      rw [runStep_unresolved hresolve] at h
      exact .inl ⟨problem, rfl, h⟩
    | ok resolved =>
      obtain ⟨config, σ⟩ := resolved
      rw [runStep_resolved hresolve] at h
      obtain ⟨before, after, v, answer, rfl, hact, hend⟩ := Activity.ends_bind_iff.mp h
      -- All the turns are those of the unit.
      obtain rfl := endWith_ends_nil hend
      rw [List.append_nil]
      exact .inr ⟨config, σ, v, answer, rfl, hact, hend⟩
  · rintro (⟨problem, hresolve, h⟩ | ⟨config, σ, v, answer, hresolve, hact, hend⟩)
    · rw [runStep_unresolved hresolve]
      exact h
    · rw [runStep_resolved hresolve]
      exact Activity.ends_bind_iff.mpr ⟨ts, [], v, answer, (List.append_nil ts).symm, hact, hend⟩

/-- What a step ends with that ends well: one more output. -/
theorem outputs_of_recorded {scope' : Scope} (hnew : step.name ∉ scope.outputs.names)
    (h : (engine.runStep invocation step index scope w).Ends off ts u (.recorded scope')) :
    ∃ output, scope'.outputs = scope.outputs ++ [(step.name, output)] := by
  rcases runStep_ends_iff.mp h with ⟨problem, -, hend⟩ | ⟨config, σ, v, answer, -, -, hend⟩
  · exact absurd hend endWithError_not_recorded
  · cases answer with
    | error e => exact absurd hend endWithError_not_recorded
    | ok output =>
      obtain ⟨scope'', houtputs, hended⟩ := endWithOutput_ends hnew hend
      obtain rfl := StepEnd.recorded.inj hended
      exact ⟨output, houtputs⟩

/-- An error escapes a step exactly if its unit raises one that cannot be told. -/
theorem runStep_escapes_iff (hnew : step.name ∉ scope.outputs.names) :
    (∃ u, (engine.runStep invocation step index scope w).Ends off ts u (.escaped e')) ↔
      ∃ config σ u e, Binding.resolveRecord scope.context step.bindings w.store = .ok (config, σ) ∧
        (World.act (engine.work step config (.invocation scope invocation.signal))
          ((engine.announce invocation.number step index w).withStore σ)).Ends off ts u (.error e) ∧
        failureAt step index e = .error e' := by
  constructor
  · rintro ⟨u, h⟩
    rcases runStep_ends_iff.mp h
        with ⟨problem, -, hend⟩ | ⟨config, σ, v, answer, hresolve, hact, hend⟩
    · -- Whatever the bindings fail with can be told.
      obtain ⟨-, herror, -⟩ := endWithError_escapes_iff.mp hend
      obtain ⟨failure, hfailure, -⟩ :=
        failureAt_of_plain (Raised.plain_of_evalProblem problem) step index
      rw [hfailure] at herror
      cases herror
    · cases answer with
      | error e => exact ⟨config, σ, v, e, hresolve, hact, (endWithError_escapes_iff.mp hend).2.1⟩
      | ok output =>
        -- The step has no output yet, so its output can be recorded.
        obtain ⟨scope', -, hended⟩ := endWithOutput_ends hnew hend
        cases hended
  · rintro ⟨config, σ, v, e, hresolve, hact, herror⟩
    have hend : (engine.endWith invocation.number step index scope v (.error e)).Ends off [] v
        (.escaped e') :=
      endWithError_escapes_iff.mpr ⟨rfl, herror, rfl⟩
    exact ⟨v, runStep_ends_iff.mpr (.inr ⟨config, σ, v, .error e, hresolve, hact, hend⟩)⟩

/-! ## §3 All steps -/

/-- A run that is called off before a step tells that. -/
theorem calledOff_ok (step : Step) (index : Nat) :
    ∃ outcome, calledOff step index = .ok outcome := ⟨_, rfl⟩

/-- A run whose steps all have an output ends with a value. -/
theorem answerOf_ok {pipeline : Pipeline}
    (houtput : ∀ name, pipeline.output = some name → name ∈ scope.outputs.names) :
    ∃ value, answerOf pipeline scope = .ok value := by
  unfold answerOf
  split
  · rename_i name hname
    obtain ⟨value, -, hfind⟩ := Outputs.exists_find? (houtput name hname)
    exact ⟨value, by rw [Outputs.get, hfind]⟩
  · split
    · exact ⟨_, rfl⟩
    · exact ⟨_, rfl⟩

/-- **What escapes a run** is what becomes of an error that a unit on the way raises and
that cannot be told. -/
theorem runSteps_escapes_iff {pipeline : Pipeline} {rest : List Step}
    (hnames : scope.outputs.names ++ rest.map (·.name) = pipeline.stepNames)
    (hdistinct : pipeline.stepNames.Nodup)
    (houtput : ∀ name, pipeline.output = some name → name ∈ pipeline.stepNames) :
    (∃ u, (engine.runSteps invocation pipeline index rest scope w).Ends off ts u (.error e')) ↔
      ∃ place step e, engine.Raises invocation off index rest scope w ts place step e ∧
        failureAt step place e = .error e' := by
  -- The induction is on the steps that are left; the names so far and theirs are
  -- those of the pipeline.
  induction rest generalizing index scope w ts with
  | nil =>
    obtain ⟨value, hvalue⟩ : ∃ value, answerOf pipeline scope = .ok value :=
      answerOf_ok (by simpa [← hnames] using houtput)
    constructor
    · rintro ⟨u, h⟩
      rw [runSteps, hvalue] at h
      obtain ⟨-, -, hended⟩ := Activity.ends_done_iff.mp h
      cases hended
    · rintro ⟨_, _, _, h, -⟩
      cases h
  | cons step rest ih =>
    have hnew : step.name ∉ scope.outputs.names := by
      intro hmem
      exact List.disjoint_of_nodup_append (hnames ▸ hdistinct) hmem (List.mem_cons_self ..)
    -- A step that ends well moves its name from the rest to the outputs.
    have hlater : ∀ {v : World} {before : List World} {scope' : Scope},
        (engine.runStep invocation step index scope w).Ends off before v (.recorded scope') →
          scope'.outputs.names ++ rest.map (·.name) = pipeline.stepNames := by
      intro v before scope' hstep
      obtain ⟨output, houtputs⟩ := outputs_of_recorded hnew hstep
      rw [← hnames, houtputs]
      simp [Outputs.names]
    constructor
    · rintro ⟨u, h⟩
      rw [runSteps] at h
      split_ifs at h with hgiven
      -- Called off before the step: that is told, nothing escapes.
      · obtain ⟨outcome, houtcome⟩ := calledOff_ok step index
        rw [houtcome] at h
        obtain ⟨-, -, hended⟩ := Activity.ends_done_iff.mp h
        cases hended
      · have hcalm : w.surroundings.isGiven invocation.signal = false := by simpa using hgiven
        obtain ⟨before, after, v, ended, rfl, hstep, hrest⟩ := Activity.ends_bind_iff.mp h
        cases ended with
        | recorded scope' =>
          obtain ⟨place, step', e, hraises, herror⟩ := (ih (hlater hstep)).mp ⟨u, hrest⟩
          exact ⟨place, step', e, .later hcalm hstep hraises, herror⟩
        | failed failure =>
          obtain ⟨-, -, hended⟩ := Activity.ends_done_iff.mp hrest
          cases hended
        | escaped e'' =>
          obtain ⟨rfl, -, hended⟩ := Activity.ends_done_iff.mp hrest
          cases hended
          obtain ⟨config, σ, v', e, hresolve, hact, herror⟩ :=
            (runStep_escapes_iff hnew).mp ⟨v, hstep⟩
          exact ⟨index, step, e, .here hcalm hresolve (by simpa using hact), herror⟩
    -- Conversely the run goes as the steps before it do, and ends with the step that raises.
    · rintro ⟨place, step', e, hraises, herror⟩
      cases hraises with
      | here hcalm hresolve hact =>
        obtain ⟨v, hstep⟩ := (runStep_escapes_iff hnew).mpr ⟨_, _, _, e, hresolve, hact, herror⟩
        refine ⟨v, ?_⟩
        rw [runSteps, hcalm]
        exact Activity.ends_bind_iff.mpr ⟨ts, [], v, .escaped e', by simp, hstep, .done _ _⟩
      | later hcalm hstep hraises =>
        obtain ⟨u, hrest⟩ := (ih (hlater hstep)).mpr ⟨place, step', e, hraises, herror⟩
        refine ⟨u, ?_⟩
        rw [runSteps, hcalm]
        exact Activity.ends_bind_iff.mpr ⟨_, _, _, .recorded _, rfl, hstep, hrest⟩

/-- **A unit raises** an error while a pipeline is run. -/
def RunRaises (engine : Engine) (pipeline : Pipeline) (invocation : Invocation)
    (off : Bool) (w : World) (ts : List World) (place : Nat) (step : Step) (e : Raised) : Prop :=
  let (scope, store) :=
    Scope.start invocation.input invocation.claims invocation.correlationId w.store
  engine.Raises invocation off 0 pipeline.steps scope (w.withStore store) ts place step e

/-- What escapes the run of a pipeline that is in order. -/
theorem run_escapes_iff {pipeline : Pipeline} {reserved : List String} {known : String → Bool}
    (horder : pipeline.InOrder reserved known) :
    (∃ u, (engine.run pipeline invocation w).Ends off ts u (.error e')) ↔
      ∃ place step e, engine.RunRaises pipeline invocation off w ts place step e ∧
        failureAt step place e = .error e' :=
  runSteps_escapes_iff rfl horder.distinct horder.output

end Switchyard.Engine
