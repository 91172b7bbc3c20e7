import Switchyard.Proofs.Engine.Escapes

/-!
# What a run fails with

Whatever a run fails with, the failure names a step of the pipeline and its place.

Main statement: `names_of_run_failed`.
-/

namespace Switchyard

/-- **A failure names a step**: that of the steps which is at its index, the first of
them being at `start`. -/
def Failure.NamesStep (failure : Failure) (start : Nat) (steps : List Step) : Prop :=
  ∃ place step, steps[place]? = some step ∧ failure.stepName = some step.name ∧
    failure.stepIndex = some ((start + place : Nat) : Int)

namespace Failure

variable {failure : Failure} {start : Nat} {step : Step} {steps : List Step}

theorem namesStep_head (hname : failure.stepName = some step.name)
    (hindex : failure.stepIndex = some (start : Int)) :
    failure.NamesStep start (step :: steps) :=
  ⟨0, step, rfl, hname, hindex⟩

theorem NamesStep.later (h : failure.NamesStep (start + 1) steps) :
    failure.NamesStep start (step :: steps) := by
  obtain ⟨place, named, hnamed, hname, hindex⟩ := h
  exact ⟨place + 1, named, by simpa using hnamed, hname, by rw [hindex]; congr 1; omega⟩

/-- A failure of a step that passed its check names the step. -/
theorem names_of_atStep {kind : FailureKind} {message : Value} {name : String} {index : Nat}
    {details : Entries} (h : Failure.atStep kind message name index details = .ok failure) :
    failure.stepName = some name ∧ failure.stepIndex = some (index : Int) := by
  rw [atStep_eq] at h
  -- Both checks that are left have passed, and they leave the name and the index alone.
  cases hmessage : Form.text message <;> cases hdetails : Form.dictionary (.map details) <;>
    rw [hmessage, hdetails] at h <;> cases h
  exact ⟨rfl, rfl⟩

end Failure

namespace Engine

variable {engine : Engine} {invocation : Invocation} {pipeline : Pipeline} {off : Bool}
  {w u : World} {ts : List World} {failure : Failure} {outputs : Outputs}

/-- What the error of a step is told as names the step. -/
theorem names_of_failureAt {step : Step} {index : Nat} {e : Raised}
    (h : failureAt step index e = .ok failure) :
    failure.stepName = some step.name ∧ failure.stepIndex = some (index : Int) := by
  cases e with
  | abandoned => cases h
  | fault f =>
    simp only [failureAt, Raised.passedOn_fault] at h
    cases hcheck : Failure.atStep f.kind f.message step.name index f.details with
    | error issues =>
      rw [hcheck] at h
      cases h
    | ok told =>
      rw [hcheck] at h
      obtain rfl := Except.ok.inj h
      exact Failure.names_of_atStep hcheck
  | rejected _ | refused _ _ | broken _ _ =>
    rw [failureAt_of_not_fault (by simp) (by simp)] at h
    obtain rfl := Except.ok.inj h
    exact ⟨rfl, rfl⟩

/-- A step that fails is named by its failure. -/
theorem names_of_runStep_failed {step : Step} {index : Nat} {scope : Scope}
    (h : (engine.runStep invocation step index scope w).Ends off ts u (.failed failure)) :
    failure.stepName = some step.name ∧ failure.stepIndex = some (index : Int) := by
  have herror : ∀ {v u : World} {ts : List World} {e : Raised},
      (engine.endWithError invocation.number step index e v).Ends off ts u (.failed failure) →
        failure.stepName = some step.name ∧ failure.stepIndex = some (index : Int) := by
    intro v u ts e hend
    obtain ⟨-, ⟨told, htold, -, hended⟩ | ⟨_, -, -, hended⟩⟩ := endWithError_ends_iff.mp hend
    · obtain rfl := StepEnd.failed.inj hended
      exact names_of_failureAt htold
    · cases hended
  rcases runStep_ends_iff.mp h with ⟨problem, -, hend⟩ | ⟨config, σ, v, answer, -, -, hend⟩
  · exact herror hend
  · cases answer with
    | error e => exact herror hend
    | ok output =>
      -- An output is recorded, or its recording escapes.
      rw [endWith, endWithOutput] at hend
      split at hend
      · cases (Activity.ends_done_iff.mp hend).2.2
      · cases (Activity.ends_done_iff.mp hend).2.2

/-- Steps that are run fail with one of them. -/
theorem names_of_runSteps_failed {steps : List Step} {index : Nat} {scope : Scope}
    (h : (engine.runSteps invocation pipeline index steps scope w).Ends off ts u
      (.ok (.failed failure outputs))) :
    failure.NamesStep index steps := by
  induction steps generalizing index scope w ts with
  | nil =>
    have hended := (Activity.ends_done_iff.mp h).2.2
    cases hanswer : answerOf pipeline scope with
    | error e =>
      rw [hanswer] at hended
      cases hended
    | ok value =>
      rw [hanswer] at hended
      cases hended
  | cons step rest ih =>
    rw [runSteps] at h
    split_ifs at h with hgiven
    -- Called off before the step, the run names the step.
    · have hended := (Activity.ends_done_iff.mp h).2.2
      have hcalled : calledOff step index = .ok (.failed ⟨.cancelled, "Invocation cancelled",
          some step.name, some (index : Int), []⟩ []) := rfl
      rw [hcalled] at hended
      obtain ⟨rfl, -⟩ := Outcome.failed.inj (Except.ok.inj hended)
      exact Failure.namesStep_head rfl rfl
    · obtain ⟨before, after, v, ended, rfl, hstep, hrest⟩ := Activity.ends_bind_iff.mp h
      cases ended with
      | recorded scope' => exact (ih hrest).later
      | failed failure' =>
        obtain ⟨rfl, -⟩ := Outcome.failed.inj (Except.ok.inj (Activity.ends_done_iff.mp hrest).2.2)
        obtain ⟨hname, hindex⟩ := names_of_runStep_failed hstep
        exact Failure.namesStep_head hname hindex
      | escaped e => cases (Activity.ends_done_iff.mp hrest).2.2

/-- **What a run fails with** names a step of the pipeline and its place. -/
theorem names_of_run_failed
    (h : (engine.run pipeline invocation w).Ends off ts u (.ok (.failed failure outputs))) :
    failure.NamesStep 0 pipeline.steps :=
  names_of_runSteps_failed h

end Engine

end Switchyard
