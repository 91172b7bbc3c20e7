import Switchyard.Proofs.Engine.Reference
import Switchyard.Units.Probe

/-!
# Runs are reference folds

Running a pipeline of a built table comes to what the reference fold comes to, if the units are
functions. One step keeps the views up to date; from there the steps follow by induction.

Main statement: the run ends with the outcome that the fold calls for, and leaves its surroundings
(`run_reports_reference`).
-/

namespace Switchyard

namespace Engine

open StepRecord (scope display Shown outputs)

variable {engine : Engine} {ops : Operations} {invocation : Invocation} {step : Step}
  {index steps : Nat} {done : List StepRecord} {w : World} {s : Surroundings}

/-! ## §1 One step -/

/-- A unit whose name has been looked up does what the operations say. -/
theorem act_of_computes (hcomputes : engine.table.Computes ops)
    (hcaptured : ∃ unit, engine.table.units.lookup step.uses = some unit) (config : Value)
    (caller : Caller) :
    World.act (engine.work step config caller) w =
      .done { w with surroundings := (ops step.uses config caller w.surroundings).1 }
        (ops step.uses config caller w.surroundings).2 := by
  obtain ⟨unit, hlookup⟩ := hcaptured
  obtain ⟨u, behaviour, rfl, hbehaviour, hdoes⟩ := hcomputes _ _ hlookup
  simp only [World.act, work, PipelineTable.unitNamed, hlookup, hbehaviour, hdoes, Activity.within]

/-- An error that is told ends a step with its failure. -/
theorem endWithError_of_plain (engine : Engine) (number : Nat) (step : Step) (index : Nat)
    (w : World) {e : Raised} (h : e.Plain) :
    ∃ w' failure, engine.endWithError number step index e w = .done w' (.failed failure) ∧
      w'.surroundings = w.surroundings ∧ failure.Tells step index e.passedOn := by
  obtain ⟨failure, hfailure, htells⟩ := failureAt_of_plain h step index
  refine ⟨engine.reportFailure number step index failure w, failure, ?_,
    reportFailure_surroundings, htells⟩
  simp only [endWithError, hfailure]

/-- **A step that fails** tells what performing it fails with. -/
theorem runStep_of_perform_error {e : Raised} (index : Nat) (hcomputes : engine.table.Computes ops)
    (hlawful : ops.Lawful invocation.signal)
    (hcaptured : ∃ unit, engine.table.units.lookup step.uses = some unit)
    (hperform : ops.perform invocation steps step done w.surroundings = (s, .error e)) :
    ∃ w' failure, engine.runStep invocation step index (scope invocation steps done) w =
      .done w' (.failed failure) ∧
      w'.surroundings = s ∧ failure.Tells step index e.passedOn := by
  -- Either the bindings fail, before the unit is called, or the unit itself does.
  rcases Operations.perform_error hperform
      with ⟨problem, hproblem, rfl, rfl⟩ | ⟨config, σ, hresolved, hops⟩
  · rw [runStep_unresolved hproblem]
    obtain ⟨w', failure, hend, hsurroundings, htells⟩ :=
      endWithError_of_plain engine invocation.number step index
        (engine.announce invocation.number step index w) (Raised.plain_of_evalProblem problem)
    exact ⟨w', failure, hend, hsurroundings.trans announce_surroundings, htells⟩
  · rw [runStep_resolved hresolved, act_of_computes hcomputes hcaptured]
    simp only [World.withStore_surroundings, announce_surroundings, hops, Activity.bind, endWith]
    exact endWithError_of_plain engine _ _ _ _ (hlawful.plain _ _ _ _ e (by rw [hops]))

/-- **A step that succeeds** records what performing it gives, and the views
are up to date again. -/
theorem runStep_of_perform_ok {r : StepRecord} (index : Nat) (hcomputes : engine.table.Computes ops)
    (hlawful : ops.Lawful invocation.signal)
    (hcaptured : ∃ unit, engine.table.units.lookup step.uses = some unit)
    (hnew : step.name ∉ done.map (·.name)) (hreserved : step.name ∉ reservedNames)
    (hshown : Shown steps done w.store) (hcalm : w.surroundings.isGiven invocation.signal = false)
    (hperform : ops.perform invocation steps step done w.surroundings = (s, .ok r)) :
    ∃ w', engine.runStep invocation step index (scope invocation steps done) w =
        .done w' (.recorded (scope invocation steps (done ++ [r]))) ∧
      w'.surroundings = display steps (done ++ [r]) s ∧ Shown steps (done ++ [r]) w'.store ∧
      w'.surroundings.isGiven invocation.signal = false ∧ r.name = step.name := by
  obtain ⟨config, σ, s₁, output, hresolved, hops, rfl, rfl⟩ := Operations.perform_ok hperform
  -- Resolving only adds cells and a unit cannot change a view, so the views are still up to date.
  have hshown₁ : Shown steps done s₁.store := by
    have hkeeps := hlawful.keepsViews step.uses config
      (.invocation (scope invocation steps done) invocation.signal)
      { w.surroundings with store := σ }
    rw [hops] at hkeeps
    exact (hshown.of_keepsViews (Binding.resolve_extends hresolved).keepsViews).of_keepsViews hkeeps
  -- The unit has not called the invocation off either.
  have hcalm₁ : s₁.isGiven invocation.signal = false := by
    have hkeeps := hlawful.callsNothingOff step.uses config
      (.invocation (scope invocation steps done) invocation.signal)
        { w.surroundings with store := σ } hcalm
    rwa [hops] at hkeeps
  have hrecord : (scope invocation steps done).record step.name output s₁.store = .ok (_, _) :=
    StepRecord.record_scope hshown₁ hnew hreserved
  -- Now the step can be carried out: the unit is called, its output recorded,
  -- and the hooks are told.
  rw [runStep_resolved hresolved, act_of_computes hcomputes hcaptured]
  simp only [World.withStore_surroundings, announce_surroundings, hops, Activity.bind, endWith,
    endWithOutput, World.store, hrecord]
  refine ⟨_, rfl, ?_, ?_, ?_, trivial⟩
  · simp only [reportEnd_surroundings, World.withStore_surroundings, display]
  · simp only [reportEnd_surroundings, World.withStore_surroundings]
    exact (hshown₁.record (r := ⟨step.name, output, s₁.store.cells.size⟩) rfl).1
  · simp only [reportEnd_surroundings, World.withStore_surroundings]
    exact hcalm₁

/-! ## §2 All steps -/

/-- What a run ends with whose steps all succeeded. -/
theorem answerOf_scope {pipeline : Pipeline} (invocation : Invocation) (steps : Nat)
    (hsteps : done.map (·.name) = pipeline.stepNames)
    (houtput : ∀ name, pipeline.output = some name → name ∈ pipeline.stepNames) :
    ∃ value, answerOf pipeline (scope invocation steps done) = .ok value ∧
      pipeline.Yields invocation.input done value := by
  unfold answerOf
  split
  · rename_i name hname
    -- The designated output is the name of a step, so one of the records has it.
    have hnamed : name ∈ (outputs done).names := by
      rw [StepRecord.names_outputs, hsteps]
      exact houtput name hname
    obtain ⟨value, hmem, hfind⟩ := Outputs.exists_find? hnamed
    obtain ⟨r, hr, heq⟩ := List.mem_map.mp hmem
    obtain ⟨rfl, rfl⟩ := Prod.mk.inj heq
    exact ⟨r.output, by simp only [Outputs.get, scope, hfind], .designated hname hr⟩
  · rename_i hnone
    split
    · rename_i name value hlast
      -- No output is designated, so the last one is the value if there is one.
      rw [scope, Outputs.last, outputs, List.getLast?_map] at hlast
      obtain ⟨r, hr, heq⟩ := Option.map_eq_some_iff.mp hlast
      obtain ⟨rfl, rfl⟩ := Prod.mk.inj heq
      exact ⟨r.output, rfl, .last hnone hr⟩
    · rename_i hlast
      rw [scope, Outputs.last, outputs, List.getLast?_map, Option.map_eq_none_iff,
        List.getLast?_eq_none_iff] at hlast
      -- No step has run, so there are none.
      subst hlast
      exact ⟨invocation.input, rfl, .input hnone (List.map_eq_nil_iff.mp hsteps.symm)⟩

/-- Making the views anew changes no surroundings in which they are up to date. -/
theorem display_eq_self (h : Shown steps done s.store) : display steps done s = s := by
  rw [display, h.showIn_eq_self]

/-- A fold makes the views anew itself. -/
theorem fold_display {rest : List Step} (h : Shown steps done (display steps done s).store) :
    ops.fold invocation steps index rest done (display steps done s) =
      ops.fold invocation steps index rest done s := by
  cases rest with
  | nil => rw [Operations.fold, Operations.fold, display_eq_self h]
  | cons step rest => rw [Operations.fold, Operations.fold, display_eq_self h]

/-- **The run and the fold**: from views that are up to date, running steps comes to what folding
over them comes to. -/
theorem runSteps_of_fold (pipeline : Pipeline) (index : Nat) (hcomputes : engine.table.Computes ops)
    (hlawful : ops.Lawful invocation.signal) (rest : List Step)
    (hcaptured : ∀ step ∈ rest, ∃ unit, engine.table.units.lookup step.uses = some unit)
    (hreserved : ∀ step ∈ rest, step.name ∉ reservedNames)
    (hdistinct : (done.map (·.name) ++ rest.map (·.name)).Nodup)
    (hshown : Shown steps done w.store) (hcalm : w.surroundings.isGiven invocation.signal = false) :
    ∃ w' ended, engine.runSteps invocation pipeline index rest (scope invocation steps done) w =
      .done w' ended ∧
      w'.surroundings = (ops.fold invocation steps index rest done w.surroundings).1 ∧
      match (ops.fold invocation steps index rest done w.surroundings).2 with
      | .ok all => all.map (·.name) = done.map (·.name) ++ rest.map (·.name) ∧
          ended = (answerOf pipeline (scope invocation steps all)).map
            (Outcome.success · (outputs all))
      | .error (place, step, e) => index ≤ place ∧ rest[place - index]? = some step ∧
          ∃ failure : Failure, failure.Tells step place e.passedOn ∧
            ended = .ok (.failed failure []) := by
  -- The views stay up to date from step to step; that is what makes the induction go through.
  induction rest generalizing index done w with
  | nil =>
    refine ⟨w, _, rfl, ?_, ?_⟩
    · rw [Operations.fold, display_eq_self hshown]
    · simp [Operations.fold, scope]
  | cons step rest ih =>
    have hname : step.name ∉ done.map (·.name) := by
      intro hmem
      exact List.disjoint_of_nodup_append hdistinct hmem (List.mem_cons_self ..)
    have hstepReserved := hreserved step (List.mem_cons_self ..)
    have hstepCaptured := hcaptured step (List.mem_cons_self ..)
    simp only [runSteps, hcalm, Bool.false_eq_true, ↓reduceIte, Operations.fold,
      display_eq_self hshown]
    -- The step is performed the same way in the run and in the fold.
    cases hperform : ops.perform invocation steps step done w.surroundings with
    | mk s answer =>
      cases answer with
      | error e =>
        obtain ⟨w', failure, hrun, hsurroundings, htells⟩ :=
          runStep_of_perform_error index hcomputes hlawful hstepCaptured hperform
        refine ⟨w', .ok (.failed failure []), by
          rw [hrun]; rfl, hsurroundings, Nat.le_refl _, by simp, ?_⟩
        exact ⟨failure, htells, rfl⟩
      | ok r =>
        obtain ⟨w₁, hrun, hsurroundings, hshown₁, hcalm₁, hr⟩ :=
          runStep_of_perform_ok index hcomputes hlawful hstepCaptured hname hstepReserved hshown
            hcalm hperform
        have hnames : (done ++ [r]).map (·.name) ++ rest.map (·.name) =
            done.map (·.name) ++ (step :: rest).map (·.name) := by
          simp [hr]
        -- The fold makes views anew that the run has kept up to date.
        have hfold : ops.fold invocation steps (index + 1) rest (done ++ [r]) w₁.surroundings =
            ops.fold invocation steps (index + 1) rest (done ++ [r]) s := by
          rw [hsurroundings]
          refine fold_display ?_
          rw [← hsurroundings]
          exact hshown₁
        obtain ⟨w', ended, hrest, hsame, hended⟩ := ih (index + 1)
          (fun s' hs' => hcaptured s' (List.mem_cons_of_mem _ hs'))
          (fun s' hs' => hreserved s' (List.mem_cons_of_mem _ hs'))
            (hnames ▸ hdistinct) hshown₁ hcalm₁
        rw [hfold] at hsame hended
        refine ⟨w', ended, by rw [hrun]; exact hrest, hsame, ?_⟩
        revert hended
        cases (ops.fold invocation steps (index + 1) rest (done ++ [r]) s).2 with
        | ok all =>
          rintro ⟨hall, hended⟩
          exact ⟨hall.trans hnames, hended⟩
        | error failed =>
          rintro ⟨hplace, hstep, htold⟩
          refine ⟨by omega, ?_, htold⟩
          -- The place is counted from the first of all steps, which is one before the rest.
          rw [List.getElem?_cons, if_neg (by omega), Nat.sub_sub]
          exact hstep

end Engine

/-! ## §3 Runs of built tables -/

/-- Answers with the `value` of the configuration. -/
def echoing : Operations := .ofFunctions fun _ config _ σ =>
  match σ.entries? config with
  | some entries => .ok ((entries.field? "value").getD .null)
  | none => .error (Units.noFields σ config)

/-- The catalog whose only unit echoes. -/
def echoCatalog : Catalog :=
  { entries := [{ name := "echo", source := .given (Units.probe "echo" Units.echo) }] }

/-- A step that echoes the input, and one that echoes what the first one did. -/
def echoPipeline : Pipeline where
  route := ⟨"echo", "twice"⟩
  steps :=
    [⟨"first", "echo", [("value", .expression ⟨"input", .path [.name "input"]⟩)], ""⟩,
      ⟨"second", "echo",
        [("value", .expression ⟨"steps.first.output",
          .path [.name "steps", .name "first", .name "output"]⟩)], ""⟩]

/-- The table that serves the echoing pipeline. -/
def echoTable : PipelineTable :=
  ⟨[(⟨"echo", "twice"⟩, echoPipeline)], [("echo", some (Units.probe "echo" Units.echo))]⟩

theorem echoTable_computes : echoTable.Computes echoing := by
  intro uses unit h
  obtain ⟨rfl, rfl⟩ : uses = "echo" ∧ unit = some (Units.probe "echo" Units.echo) := by
    simp only [echoTable, List.lookup_cons, List.lookup_nil] at h
    split at h <;> simp_all
  refine ⟨_, _, rfl, rfl, fun config caller s => ?_⟩
  simp only [Units.echo, Units.withEntries, echoing, Operations.ofFunctions]
  split <;> simp_all [Call.answer]

theorem echoing_lawful : echoing.Lawful none := by
  refine Operations.lawful_ofFunctions none fun uses config caller σ e he => ?_
  split at he
  · cases he
  · obtain rfl := Except.error.inj he
    trivial

end Switchyard
