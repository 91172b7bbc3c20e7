import Switchyard.Proofs.Activity.Pool
import Switchyard.Proofs.Engine.Escapes
import Switchyard.Proofs.Engine.Reference

/-!
# How far a run has come

A run of a pipeline comes from step to step: each step calls its unit, and when that has answered
the next step sees the output. In between a run keeps its scope, and the views that show the outputs
to expressions. These belong to the run: a unit can read them but not change them.

Main statements: a run that is resumed in the states in which it was brought to a step goes on with
that step (`Reaches.after_eq`), a run that succeeds has come past all steps
(`exists_reaches_of_success`), and what a step finds is made of the outputs so far alone
(`Reaches.exists_records`).
-/

namespace Switchyard

/-! ## §1 Calls that are over -/

/-- A call of the unit of a step that is over and was answered with an output. -/
structure PastCall where
  step : Step
  /-- The scope of the invocation while the unit was called. -/
  scope : Scope
  /-- The configuration that the unit was called with. -/
  config : Value
  /-- The world in which the unit was called. -/
  before : World
  output : Value
  /-- The world in which the unit answered. -/
  after : World

/-- **The views of a scope**: that of the steps, and those that it holds. -/
inductive Scope.Owns (scope : Scope) (σ : Store) : Nat → Prop
  | steps : Owns scope σ scope.steps
  | entry {entries : Entries} {key : Scalar} {address : Nat} :
      σ.cell? scope.steps = some (.view entries) → (key, .shared address) ∈ entries →
      Owns scope σ address

/-- **The call leaves the views of its scope alone.** Whoever is handed a view can only read it. -/
def PastCall.SparesViews (call : PastCall) : Prop :=
  ∀ address entries, call.scope.Owns call.before.store address →
    call.before.store.cell? address = some (.view entries) →
      call.after.store.cell? address = some (.view entries)

/-- What calls answered, by the names of their steps. -/
def PastCall.outputs (past : List PastCall) : Outputs :=
  past.map fun call => (call.step.name, call.output)

namespace PastCall

variable {call : PastCall} {past : List PastCall}

theorem sparesViews_of_keepsViews (h : call.before.store.KeepsViews call.after.store) :
    call.SparesViews :=
  fun address entries _ hview => h address entries hview

@[simp] theorem names_outputs : (outputs past).names = past.map (·.step.name) := by
  simp [Outputs.names, outputs]

@[simp] theorem outputs_append {more : List PastCall} :
    outputs (past ++ more) = outputs past ++ outputs more :=
  List.map_append

end PastCall

namespace Engine

/-- **A run has come so far**: resumed in the given states it has called the units of some steps,
the calls are over, and now the first of the other steps is due, with the given scope and world. -/
inductive Reaches (engine : Engine) (pipeline : Pipeline) (invocation : Invocation)
    (off : Bool) (w : World) : List World → List PastCall → List Step → Scope → World → Prop
  | start {scope : Scope} {σ : Store} :
      Scope.start invocation.input invocation.claims invocation.correlationId w.store = (scope, σ) →
      Reaches engine pipeline invocation off w [] [] pipeline.steps scope (w.withStore σ)
  | next {ts before : List World} {past : List PastCall} {step : Step} {rest : List Step}
      {scope scope' : Scope} {u v u' : World} {config output : Value} {σ : Store} :
      Reaches engine pipeline invocation off w ts past (step :: rest) scope u →
      u.surroundings.isGiven invocation.signal = false →
      Binding.resolveRecord scope.context step.bindings u.store = .ok (config, σ) →
      (World.act (engine.work step config (.invocation scope invocation.signal))
        ((engine.announce invocation.number step past.length u).withStore σ)).Ends off before v
          (.ok output) →
      engine.endWithOutput invocation.number step scope output v = .done u' (.recorded scope') →
      Reaches engine pipeline invocation off w (ts ++ before)
        (past ++ [⟨step, scope, config,
          (engine.announce invocation.number step past.length u).withStore σ, output, v⟩])
        rest scope' u'

/-- **A unit is called** in a run that has come to its step: the run was not called off, and
the bindings resolve. -/
def Calls (engine : Engine) (pipeline : Pipeline) (invocation : Invocation) (off : Bool) (w : World)
    (ts : List World) (past : List PastCall) (step : Step) (config : Value) : Prop :=
  ∃ rest scope u σ, engine.Reaches pipeline invocation off w ts past (step :: rest) scope u ∧
    u.surroundings.isGiven invocation.signal = false ∧
    Binding.resolveRecord scope.context step.bindings u.store = .ok (config, σ)

end Engine

/-! ## §2 Where a run goes on -/

namespace Activity

variable {σ α β : Type} {off : Bool}

@[simp] theorem after_nil {a : Activity σ α} : a.after [] = a := rfl

/-- What follows an activity begins when that has come to its end. -/
theorem Ends.after_bind {a : Activity σ α} {next : σ → α → Activity σ β} {ts : List σ}
    {s : σ} {x : α} (h : a.Ends off ts s x) : (a.bind next).after ts = next s x := by
  induction h with
  | done s x => rfl
  | resumed _ ih => exact ih
  | calledOff _ _ ih => exact ih

end Activity

namespace Engine

variable {engine : Engine} {pipeline : Pipeline} {invocation : Invocation}
  {off : Bool} {w u : World} {ts : List World} {past : List PastCall} {rest : List Step}
  {scope : Scope}

/-- The steps whose calls are over and the others are all steps. -/
theorem Reaches.steps_eq (h : engine.Reaches pipeline invocation off w ts past rest scope u) :
    past.map (·.step) ++ rest = pipeline.steps := by
  induction h with
  | start _ => rfl
  | next _ _ _ _ _ ih => simpa using ih

/-- An end that records an output is over at once. -/
theorem endWithOutput_eq_iff {number : Nat} {step : Step} {scope scope' : Scope} {output : Value}
    {v u' : World} : engine.endWithOutput number step scope output v = .done u' (.recorded scope') ↔
      (engine.endWithOutput number step scope output v).Ends off [] u' (.recorded scope') := by
  constructor
  · intro h
    rw [h]
    exact .done _ _
  · intro h
    unfold endWithOutput at h ⊢
    split at h
    · obtain ⟨-, rfl, hscope⟩ := Activity.ends_done_iff.mp h
      rw [hscope]
    · cases (Activity.ends_done_iff.mp h).2.2

/-- **A step ends well** exactly if its bindings resolve, its unit answers with an output,
and that is recorded. -/
theorem runStep_recorded_iff {before : List World} {step : Step} {index : Nat} {scope' : Scope}
    {u' : World} :
    (engine.runStep invocation step index scope u).Ends off before u' (.recorded scope') ↔
      ∃ config σ v output, Binding.resolveRecord scope.context step.bindings u.store =
        .ok (config, σ) ∧
        (World.act (engine.work step config (.invocation scope invocation.signal))
          ((engine.announce invocation.number step index u).withStore σ)).Ends off before v
            (.ok output) ∧
        engine.endWithOutput invocation.number step scope output v =
          .done u' (.recorded scope') := by
  constructor
  · intro h
    rcases runStep_ends_iff.mp h
        with ⟨problem, -, herror⟩ | ⟨config, σ, v, answer, hresolve, hact, hend⟩
    · exact absurd herror endWithError_not_recorded
    · cases answer with
      | error e => exact absurd hend endWithError_not_recorded
      | ok output => exact ⟨config, σ, v, output, hresolve, hact, endWithOutput_eq_iff.mpr hend⟩
  · rintro ⟨config, σ, v, output, hresolve, hact, hend⟩
    exact runStep_ends_iff.mpr
      (.inr ⟨config, σ, v, .ok output, hresolve, hact, endWithOutput_eq_iff.mp hend⟩)

/-- **Where a run goes on**: resumed in the states that brought it to a step, it
goes on with that step. -/
theorem Reaches.after_eq (h : engine.Reaches pipeline invocation off w ts past rest scope u) :
    (engine.run pipeline invocation w).after ts =
      engine.runSteps invocation pipeline past.length rest scope u := by
  induction h with
  | start hstart => rw [Activity.after_nil, run, hstart]; rfl
  | @next ts before past step rest scope scope' u v u' config output σ _ hcalm hresolve
    hact hend ih =>
    rw [Activity.after_append, ih, runSteps, hcalm]
    -- The step is its call followed by its end, and after the call only the end is left.
    have hstep : (engine.runStep invocation step past.length scope u).Ends off before u'
        (.recorded scope') :=
      runStep_recorded_iff.mpr ⟨config, σ, v, output, hresolve, hact, hend⟩
    simpa using hstep.after_bind

/-- What steps come to that all end well. -/
theorem exists_reaches_of_runSteps {us : List World} {w' : World} {value : Value}
    {outputs : Outputs} (h : engine.Reaches pipeline invocation off w ts past rest scope u)
    (hend : (engine.runSteps invocation pipeline past.length rest scope u).Ends off us w'
      (.ok (.success value outputs))) :
    ∃ more scope', engine.Reaches pipeline invocation off w (ts ++ us) (past ++ more) [] scope' w' ∧
      scope'.outputs = outputs := by
  induction rest generalizing ts past scope u us with
  | nil =>
    obtain ⟨rfl, rfl, hanswer⟩ := Activity.ends_done_iff.mp hend
    cases hvalue : answerOf pipeline scope with
    | error e =>
      rw [hvalue] at hanswer
      cases hanswer
    | ok v =>
      rw [hvalue] at hanswer
      obtain ⟨-, rfl⟩ := Outcome.success.inj (Except.ok.inj hanswer)
      exact ⟨[], scope, by simpa using h, rfl⟩
  | cons step rest ih =>
    rw [runSteps] at hend
    split_ifs at hend with hgiven
    · -- A run that was called off does not succeed.
      have hcalled : calledOff step past.length = .ok (.failed ⟨.cancelled, "Invocation cancelled",
          some step.name, some (past.length : Int), []⟩ []) := rfl
      rw [hcalled] at hend
      cases (Activity.ends_done_iff.mp hend).2.2
    · obtain ⟨before, after, v, ended, rfl, hstep, hrest⟩ := Activity.ends_bind_iff.mp hend
      have hcalm : u.surroundings.isGiven invocation.signal = false := by simpa using hgiven
      cases ended with
      | failed failure => cases (Activity.ends_done_iff.mp hrest).2.2
      | escaped e => cases (Activity.ends_done_iff.mp hrest).2.2
      | recorded scope' =>
        -- A step that ends well has called its unit, and the output was recorded.
        obtain ⟨config, σ, v', output, hresolve, hact, hrecorded⟩ := runStep_recorded_iff.mp hstep
        obtain ⟨more, scope'', hreaches, houtputs⟩ :=
          ih (h.next hcalm hresolve hact hrecorded) (by simpa using hrest)
        exact ⟨_ :: more, scope'', by simpa using hreaches, houtputs⟩

/-- **A run that succeeds** has come past all its steps, and tells the outputs that
its scope has then. -/
theorem exists_reaches_of_success {w' : World} {value : Value} {outputs : Outputs}
    (h : (engine.run pipeline invocation w).Ends off ts w' (.ok (.success value outputs))) :
    ∃ past scope, engine.Reaches pipeline invocation off w ts past [] scope w' ∧
      scope.outputs = outputs := by
  obtain ⟨more, scope', hreaches, houtputs⟩ := exists_reaches_of_runSteps (.start rfl) h
  exact ⟨more, scope', by simpa using hreaches, houtputs⟩

/-! ## §3 What a step finds -/

open StepRecord (Shown shownSteps)

/-- The views of a scope made of records are those that are kept up to date. -/
theorem owns_of_shown {steps address : Nat} {done : List StepRecord} {σ : Store}
    (hshown : Shown steps done σ) (h : address = steps ∨ ∃ r ∈ done, address = r.entry) :
    (StepRecord.scope invocation steps done).Owns σ address := by
  rcases h with rfl | ⟨r, hr, rfl⟩
  · exact .steps
  · have hentry : ((.text r.name, .shared r.entry) : Scalar × Value) ∈ shownSteps done :=
      List.mem_map.mpr ⟨(r.name, .shared r.entry), List.mem_map_of_mem hr, rfl⟩
    exact .entry hshown.all hentry

/-- A call that leaves the views of its scope alone keeps them up to date. -/
theorem shown_of_sparesViews {call : PastCall} {steps : Nat} {done : List StepRecord}
    (hspares : call.SparesViews) (hscope : call.scope = StepRecord.scope invocation steps done)
    (hshown : Shown steps done call.before.store) : Shown steps done call.after.store where
  all := hspares _ _ (hscope ▸ owns_of_shown hshown (.inl rfl)) hshown.all
  each r hr := hspares _ _ (hscope ▸ owns_of_shown hshown (.inr ⟨r, hr, rfl⟩)) (hshown.each r hr)
  apart := hshown.apart

/-- Records of what calls answered have the names of their steps. -/
theorem names_eq_of_outputs_eq {done : List StepRecord}
    (h : StepRecord.outputs done = PastCall.outputs past) :
    done.map (·.name) = past.map (·.step.name) := by
  rw [← StepRecord.names_outputs, h, PastCall.names_outputs]

/-- The names of the steps that are left are those of no calls, if all steps
have different names. -/
theorem Reaches.name_notMem_past {step : Step} (hdistinct : pipeline.stepNames.Nodup)
    (h : engine.Reaches pipeline invocation off w ts past rest scope u) (hstep : step ∈ rest) :
    step.name ∉ past.map (·.step.name) := by
  rw [Pipeline.stepNames, ← h.steps_eq, List.map_append, List.map_map] at hdistinct
  intro hold
  exact List.disjoint_of_nodup_append hdistinct hold (List.mem_map_of_mem hstep)

/-- The names of the steps that are left are those of no records, and not reserved. -/
theorem Reaches.name_notMem {known : String → Bool} {step : Step} {done : List StepRecord}
    (horder : pipeline.InOrder reservedNames known)
    (h : engine.Reaches pipeline invocation off w ts past rest scope u)
    (houtputs : StepRecord.outputs done = PastCall.outputs past) (hstep : step ∈ rest) :
    step.name ∉ done.map (·.name) ∧ step.name ∉ reservedNames := by
  rw [names_eq_of_outputs_eq houtputs]
  exact ⟨h.name_notMem_past horder.distinct hstep,
    (horder.named step (h.steps_eq ▸ List.mem_append_right _ hstep)).2⟩

/-- **Recording** an output that is new leaves the scope made of one more record, and a store with
one more view and a new view of the steps. -/
theorem endWithOutput_of_shown {number steps : Nat} {step : Step} {done : List StepRecord}
    {output : Value} {v : World} {scope' : Scope} (hshown : Shown steps done v.store)
    (hnew : step.name ∉ done.map (·.name)) (hreserved : step.name ∉ reservedNames)
    (h : engine.endWithOutput number step (StepRecord.scope invocation steps done) output v =
      .done u (.recorded scope')) :
    scope' = StepRecord.scope invocation steps (done ++ [⟨step.name, output, v.store.cells.size⟩]) ∧
      Shown steps (done ++ [⟨step.name, output, v.store.cells.size⟩]) u.store ∧
      u.store = (v.store.alloc (.view (Entries.ofFields [("output", output)]))).2.set steps
        (.view (shownSteps (done ++ [⟨step.name, output, v.store.cells.size⟩]))) := by
  have hrecord : (StepRecord.scope invocation steps done).record step.name output v.store =
      .ok (_, _) :=
    StepRecord.record_scope hshown hnew hreserved
  obtain ⟨hrecorded, hset⟩ := hshown.record (r := ⟨step.name, output, v.store.cells.size⟩) rfl
  rw [endWithOutput, hrecord] at h
  obtain ⟨rfl, hended⟩ := Activity.done.inj h
  obtain rfl := StepEnd.recorded.inj hended
  refine ⟨rfl, ?_, ?_⟩
  · show Shown _ _ (Surroundings.store _)
    rw [reportEnd_surroundings]
    exact hrecorded
  · show Surroundings.store _ = _
    rw [reportEnd_surroundings]
    exact hset

/-- **One more step**: what the step finds, its unit leaves behind, and the next step finds
with one more record. -/
theorem records_next {number steps : Nat} {step : Step} {done : List StepRecord}
    {config output : Value} {σ : Store} {v v' u' : World} {scope' : Scope}
    (hshown : Shown steps done u.store) (hresolve :
      Binding.resolveRecord (StepRecord.scope invocation steps done).context step.bindings u.store =
      .ok (config, σ))
    (hspares : PastCall.SparesViews
      ⟨step, StepRecord.scope invocation steps done, config, v.withStore σ, output, v'⟩)
    (hnew : step.name ∉ done.map (·.name)) (hreserved : step.name ∉ reservedNames)
    (hend : engine.endWithOutput number step (StepRecord.scope invocation steps done) output v' =
      .done u' (.recorded scope')) :
    Shown steps done v'.store ∧
      scope' =
        StepRecord.scope invocation steps (done ++ [⟨step.name, output, v'.store.cells.size⟩]) ∧
      Shown steps (done ++ [⟨step.name, output, v'.store.cells.size⟩]) u'.store ∧
      u'.store = (v'.store.alloc (.view (Entries.ofFields [("output", output)]))).2.set steps
        (.view (shownSteps (done ++ [⟨step.name, output, v'.store.cells.size⟩]))) := by
  -- Resolving the bindings only adds cells, and the call leaves the views alone.
  have hbefore : Shown steps done (v.withStore σ).store :=
    hshown.of_keepsViews (Binding.resolve_extends hresolve).keepsViews
  have hafter : Shown steps done v'.store := shown_of_sparesViews hspares rfl hbefore
  exact ⟨hafter, endWithOutput_of_shown hafter hnew hreserved hend⟩

/-- **What a step finds**: in a pipeline whose steps have different names, none of them
reserved, the scope and the views of a run are made of the outputs so far, if every call
left the views alone. -/
theorem Reaches.exists_records {known : String → Bool}
    (horder : pipeline.InOrder reservedNames known)
    (h : engine.Reaches pipeline invocation off w ts past rest scope u)
    (hspares : ∀ call ∈ past, call.SparesViews) :
    ∃ done, scope = StepRecord.scope invocation w.store.cells.size done ∧
      Shown w.store.cells.size done u.store ∧ StepRecord.outputs done = PastCall.outputs past := by
  induction h with
  | start hstart =>
    obtain ⟨rfl, rfl⟩ := Prod.mk.inj hstart
    exact ⟨[], rfl, StepRecord.shown_start w.store, rfl⟩
  | @next ts before past step rest scope scope' u v u' config output σ hreached
    _ hresolve _ hend ih =>
    obtain ⟨hearlier, hlast⟩ := List.forall_mem_append.mp hspares
    obtain ⟨done, rfl, hshown, houtputs⟩ := ih hearlier
    obtain ⟨hnew, hreserved⟩ := hreached.name_notMem horder houtputs (List.mem_cons_self ..)
    have hcall := List.forall_mem_singleton.mp hlast
    obtain ⟨-, hscope', hshown', -⟩ := records_next hshown hresolve hcall hnew hreserved hend
    refine ⟨_, hscope', hshown', ?_⟩
    rw [PastCall.outputs_append, ← houtputs, StepRecord.outputs, StepRecord.outputs,
      List.map_append]
    rfl

end Engine

end Switchyard
