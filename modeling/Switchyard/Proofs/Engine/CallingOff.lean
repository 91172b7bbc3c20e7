import Switchyard.Proofs.Engine.Passage
import Switchyard.Units.Probe

/-!
# Calling a run off

A run looks before each step whether it has been called off. So a signal that is given, by
whomever and whenever, and stays given, lets the step that is under way come to its end,
and no other step begins.

Main statements: a unit is called only if the signal was not given before (`Calls.calm`), and what a
run comes to that is called off before a step, while one is under way, or when no step remains
(`called_off_of_checked`).
-/

namespace Switchyard

/-! ## §1 Moments -/

namespace Activity

variable {σ α : Type} {off : Bool} {a : Activity σ α} {ts : List σ} {s : σ} {x : α}

/-- **The moments of a way of going**, as far as others can see or change anything: the
states that the activity leaves when it steps aside and those in which it is resumed, and the
state in which it ends. -/
def moments : Activity σ α → List σ → List σ
  | .done s _, _ => [s]
  | .paused s _, [] => [s]
  | .paused s resume, t :: ts => s :: t :: (resume t).moments ts
  | .waiting s _, [] => [s]
  | .waiting s callOff, t :: ts => s :: t :: (callOff t).moments ts

/-- At some moment something becomes so, and stays so until the end. -/
def BecomesAndStays (p : σ → Prop) (a : Activity σ α) (ts : List σ) : Prop :=
  ∃ before since, a.moments ts = before ++ since ∧ since ≠ [] ∧ ∀ s ∈ since, p s

/-- The last moment is the end. -/
theorem Ends.getLast?_moments (h : a.Ends off ts s x) : (a.moments ts).getLast? = some s := by
  induction h with
  | done s x => rfl
  | resumed _ ih => simp only [moments, List.getLast?_cons, ih, Option.getD_some]
  | calledOff _ _ ih => simp only [moments, List.getLast?_cons, ih, Option.getD_some]

/-- What becomes so and stays so is so at the end. -/
theorem Ends.of_becomesAndStays {p : σ → Prop} (h : a.Ends off ts s x)
    (hp : a.BecomesAndStays p ts) : p s := by
  obtain ⟨before, since, hmoments, hne, hsince⟩ := hp
  have hlast : (before ++ since).getLast? = some s := hmoments ▸ h.getLast?_moments
  rw [List.getLast?_append_of_ne_nil before hne] at hlast
  exact hsince s (List.mem_of_getLast? hlast)

end Activity

/-- **An invocation has been called off**: its signal is given. -/
def Invocation.IsOff (invocation : Invocation) (w : World) : Prop :=
  w.surroundings.isGiven invocation.signal = true

/-- The failure of an invocation that is called off before a step. -/
def Failure.ofCancelled (step : Step) (index : Nat) : Failure :=
  { kind := .cancelled, message := "Invocation cancelled", stepName := some step.name,
    stepIndex := some (index : Int) }

namespace Invocation

variable {invocation : Invocation} {w u : World}

theorem isOff_congr (h : u.surroundings.signals = w.surroundings.signals) :
    invocation.IsOff u ↔ invocation.IsOff w := by
  unfold IsOff Surroundings.isGiven
  rw [h]

@[simp] theorem isOff_withStore {σ : Store} :
    invocation.IsOff (w.withStore σ) ↔ invocation.IsOff w := isOff_congr rfl

theorem not_isOff_iff : ¬ invocation.IsOff w ↔ w.surroundings.isGiven invocation.signal = false :=
  Iff.of_eq (Bool.not_eq_true _)

end Invocation

namespace Engine

variable {engine : Engine} {pipeline : Pipeline} {invocation : Invocation} {off : Bool}
  {w u v : World} {ts : List World} {past : List PastCall} {step : Step} {rest later : List Step}
  {scope scope' : Scope}

@[simp] theorem isOff_announce {number index : Nat} :
    invocation.IsOff (engine.announce number step index w) ↔ invocation.IsOff w :=
  Invocation.isOff_congr (by rw [announce_surroundings])

/-! ## §2 Outputs of a run -/

/-- What an output is recorded as: one more output. -/
theorem outputs_of_endWithOutput {number : Nat} {output : Value}
    (h : engine.endWithOutput number step scope output v = .done u (.recorded scope')) :
    scope'.outputs = scope.outputs ++ [(step.name, output)] := by
  unfold endWithOutput at h
  split at h
  · rename_i recorded σ hrecord
    obtain rfl := StepEnd.recorded.inj (Activity.done.inj h).2
    unfold Scope.record Outputs.record at hrecord
    split_ifs at hrecord with hcontains
    · cases hrecord
    · obtain ⟨rfl, -⟩ := Prod.mk.inj (Except.ok.inj hrecord)
      rfl
  · cases (Activity.done.inj h).2

/-- Recording an output gives no signal. -/
theorem isOff_of_endWithOutput {number : Nat} {output : Value}
    (h : engine.endWithOutput number step scope output v = .done u (.recorded scope')) :
    invocation.IsOff u ↔ invocation.IsOff v := by
  unfold endWithOutput at h
  split at h
  · obtain ⟨rfl, -⟩ := Activity.done.inj h
    exact Invocation.isOff_congr (by rw [reportEnd_surroundings]; rfl)
  · cases (Activity.done.inj h).2

/-- The outputs of a run are what the units answered. -/
theorem Reaches.outputs_eq (h : engine.Reaches pipeline invocation off w ts past rest scope u) :
    scope.outputs = PastCall.outputs past := by
  induction h with
  | start hstart =>
    obtain ⟨rfl, -⟩ := Prod.mk.inj hstart
    rfl
  | next _ _ _ _ hend ih =>
    rw [outputs_of_endWithOutput hend, ih, PastCall.outputs_append]
    rfl

/-- A run that has come past all its steps has an output of each. -/
theorem Reaches.names_eq (h : engine.Reaches pipeline invocation off w ts past [] scope u) :
    scope.outputs.names = pipeline.stepNames := by
  rw [h.outputs_eq, PastCall.names_outputs, Pipeline.stepNames, ← h.steps_eq,
    List.append_nil, List.map_map]
  rfl

/-- **A run that has come past all its steps** succeeds, also if it has been called off. -/
theorem Reaches.after_eq_success {known : String → Bool}
    (horder : pipeline.InOrder reservedNames known)
    (h : engine.Reaches pipeline invocation off w ts past [] scope u) :
    ∃ value, answerOf pipeline scope = .ok value ∧ scope.outputs.names = pipeline.stepNames ∧
      (engine.run pipeline invocation w).after ts =
        .done u (.ok (.success value scope.outputs)) := by
  obtain ⟨value, hvalue⟩ : ∃ value, answerOf pipeline scope = .ok value :=
    answerOf_ok fun name hname => h.names_eq ▸ horder.output name hname
  refine ⟨value, hvalue, h.names_eq, ?_⟩
  rw [h.after_eq, runSteps, hvalue]
  rfl

/-! ## §3 Before a step -/

/-- **A run that has come to a step and has been called off** is over, with a failure
that names the step. -/
theorem Reaches.after_eq_cancelled
    (h : engine.Reaches pipeline invocation off w ts past (step :: rest) scope u)
    (hoff : invocation.IsOff u) :
    (engine.run pipeline invocation w).after ts =
      .done u (.ok (.failed (.ofCancelled step past.length) [])) := by
  have hgiven : u.surroundings.isGiven invocation.signal = true := hoff
  rw [h.after_eq, runSteps, if_pos hgiven]
  rfl

/-- A run has come past a step only if it had not been called off before or after any call. -/
theorem Reaches.calm (h : engine.Reaches pipeline invocation off w ts past rest scope u)
    (hcalm : ¬ invocation.IsOff u) : ¬ invocation.IsOff w ∧ ∀ call ∈ past,
      ¬ invocation.IsOff call.before ∧ ¬ invocation.IsOff call.after := by
  induction h with
  | start hstart => exact ⟨by simpa using hcalm, by simp⟩
  | next _ hbefore _ _ hend ih =>
    have hbefore := Invocation.not_isOff_iff.mpr hbefore
    obtain ⟨hstart, hpast⟩ := ih hbefore
    refine ⟨hstart, List.forall_mem_append.mpr ⟨hpast, List.forall_mem_singleton.mpr ⟨?_, ?_⟩⟩⟩
    · simpa using hbefore
    · rwa [← isOff_of_endWithOutput hend]

/-- **Units are called only in runs that have not been called off**: neither at the start, nor
before or after any of the calls that are over. -/
theorem Calls.calm {config : Value}
    (h : engine.Calls pipeline invocation off w ts past step config) :
    ¬ invocation.IsOff w ∧ ∀ call ∈ past, ¬ invocation.IsOff call.before ∧
      ¬ invocation.IsOff call.after := by
  obtain ⟨rest, scope, u, σ, hreached, hcalm, -⟩ := h
  exact hreached.calm (Invocation.not_isOff_iff.mpr hcalm)

/-! ## §4 While a step is under way -/

/-- A run goes on with what its step comes to. -/
theorem Reaches.after_step
    (h : engine.Reaches pipeline invocation off w ts past (step :: later) scope u)
    (hcalm : ¬ invocation.IsOff u) {before : List World} {ended : StepEnd} :
    (engine.runStep invocation step past.length scope u).Ends off before v ended →
      (engine.run pipeline invocation w).after (ts ++ before) = match ended with
        | .recorded scope => engine.runSteps invocation pipeline (past.length + 1) later scope v
        | .failed failure => .done v (.ok (.failed failure []))
        | .escaped e => .done v (.error e) := by
  intro hstep
  rw [Activity.after_append, h.after_eq, runSteps, Invocation.not_isOff_iff.mp hcalm]
  exact hstep.after_bind

/-- A run whose step ends well has come to the next one. -/
theorem Reaches.next_of_recorded {before : List World}
    (h : engine.Reaches pipeline invocation off w ts past (step :: later) scope u)
    (hcalm : ¬ invocation.IsOff u)
    (hstep : (engine.runStep invocation step past.length scope u).Ends off before v
      (.recorded scope')) :
    ∃ call, engine.Reaches pipeline invocation off w (ts ++ before)
      (past ++ [call]) later scope' v := by
  obtain ⟨config, σ, v', output, hresolve, hact, hend⟩ := runStep_recorded_iff.mp hstep
  exact ⟨_, h.next (Invocation.not_isOff_iff.mp hcalm) hresolve hact hend⟩

/-- **Calling off starts no further step.** Let a pipeline be checked, and let its run be
resumed in any states.

A unit is called only if the signal was given neither at the start nor when any of the calls before
it began or ended. And once the run has come past some steps,

* if it has been called off and a step remains, it is over with a failure that names
that step and its index;
* if it has not, and the signal is given at some moment while the next step is under way and stays
given, it is over when that step is: with the failure of the step, if it fails; with what escapes,
if something does; else with a failure that names the step after it, if there is one; and if there
is none, with the value and the outputs of all its steps;
* if no step remains, it is over and succeeds, whether it has been called off or not. -/
theorem called_off_of_checked {known : String → Bool} {pipelines : List Pipeline}
    (hchecked : PipelineProblem.find reservedNames known pipelines = [])
    (hpipeline : pipeline ∈ pipelines) :
    (∀ {ts past step config}, engine.Calls pipeline invocation off w ts past step config →
      ¬ invocation.IsOff w ∧ ∀ call ∈ past, ¬ invocation.IsOff call.before ∧
        ¬ invocation.IsOff call.after) ∧
    ∀ {ts past rest scope u}, engine.Reaches pipeline invocation off w ts past rest scope u →
      (∀ {step later}, rest = step :: later → invocation.IsOff u →
        (engine.run pipeline invocation w).after ts =
          .done u (.ok (.failed (.ofCancelled step past.length) []))) ∧
      (∀ {step later before v ended}, rest = step :: later → ¬ invocation.IsOff u →
        (engine.runStep invocation step past.length scope u).Ends off before v ended →
        (engine.runStep invocation step past.length scope u).BecomesAndStays
          invocation.IsOff before →
        match ended with
        | .failed failure =>
          (engine.run pipeline invocation w).after (ts ++ before) =
            .done v (.ok (.failed failure []))
        | .escaped e => (engine.run pipeline invocation w).after (ts ++ before) = .done v (.error e)
        | .recorded scope' => match later with
          | next :: _ => (engine.run pipeline invocation w).after (ts ++ before) =
              .done v (.ok (.failed (.ofCancelled next (past.length + 1)) []))
          | [] =>
            ∃ value, answerOf pipeline scope' = .ok value ∧
              scope'.outputs.names = pipeline.stepNames ∧
              (engine.run pipeline invocation w).after (ts ++ before) =
                .done v (.ok (.success value scope'.outputs))) ∧
      (rest = [] → ∃ value, answerOf pipeline scope = .ok value ∧
        scope.outputs.names = pipeline.stepNames ∧
        (engine.run pipeline invocation w).after ts =
          .done u (.ok (.success value scope.outputs))) := by
  have horder := (PipelineProblem.find_eq_nil_iff.mp hchecked).1 pipeline hpipeline
  refine ⟨Calls.calm, fun {ts past rest scope u} hreached => ⟨?_, ?_, ?_⟩⟩
  · rintro step later rfl hoff
    exact hreached.after_eq_cancelled hoff
  · rintro step later before v ended rfl hcalm hstep hgiven
    have hoff : invocation.IsOff v := hstep.of_becomesAndStays hgiven
    cases ended with
    | failed failure => exact hreached.after_step hcalm hstep
    | escaped e => exact hreached.after_step hcalm hstep
    | recorded scope' =>
      obtain ⟨call, hnext⟩ := hreached.next_of_recorded hcalm hstep
      cases later with
      | cons next more => simpa using hnext.after_eq_cancelled hoff
      | nil => exact hnext.after_eq_success horder
  · rintro rfl
    exact hreached.after_eq_success horder

/-! ## §5 A run that is called off -/

/-- A pipeline whose first step calls its own invocation off. -/
def quittingPipeline : Pipeline where
  route := ⟨"svc", "quit"⟩
  steps := [⟨"a", "cancel", [], ""⟩, ⟨"b", "echo", [("value", .literal (.int 1))], ""⟩]

/-- The table that serves the quitting pipeline. -/
def quittingTable : PipelineTable :=
  ⟨[(⟨"svc", "quit"⟩, quittingPipeline)],
    [("cancel", some (Units.probe "cancel" Units.cancelling)),
      ("echo", some (Units.probe "echo" Units.echo))]⟩

/-- The first step of the quitting pipeline comes to its end, and the second does not begin. -/
theorem called_off_by_first :
    PipelineProblem.find reservedNames (fun _ => true) [quittingPipeline] = [] ∧
    ∃ v, (Engine.mk quittingTable {}).run quittingPipeline { signal := some 0 }
      { surroundings := { signals := #[false] } } =
        .done v (.ok (.failed ⟨.cancelled, "Invocation cancelled", some "b", some 1, []⟩ [])) := by
  have hchecked : PipelineProblem.find reservedNames (fun _ => true) [quittingPipeline] = [] := rfl
  have hreached : (Engine.mk quittingTable {}).Reaches quittingPipeline { signal := some 0 } false
      { surroundings := { signals := #[false] } } [] [] quittingPipeline.steps _ _ := .start rfl
  -- The unit gives the signal, and that is so when the step is over.
  have hover := ((called_off_of_checked hchecked (List.mem_cons_self ..)).2 hreached).2.1 rfl
    (Invocation.not_isOff_iff.mpr rfl) (.done _ (StepEnd.recorded _))
    ⟨[], _, rfl, by simp, List.forall_mem_singleton.mpr rfl⟩
  exact ⟨hchecked, _, hover⟩

end Engine

end Switchyard
