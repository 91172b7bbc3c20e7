import Switchyard.Proofs.Engine.Sight
import Switchyard.Proofs.Value.Entries
import Switchyard.Proofs.Value.Reach

/-!
# Outputs that stay as they are

The value that is recorded for a step is never replaced by another one. But a value can lead to
containers, and one of them goes on changing during a run: the view of the steps, which expressions
hand out as it is. If units leave alone what they are given, then all other containers that an
output leads to stay as they were.

So an output stays as it was exactly if it does not lead to the view of the steps.

Main statements: `stable_iff`, and that not all outputs are stable (`not_forall_stable`).
-/

namespace Switchyard

/-- **The call leaves what it was given alone**: its configuration, and what its scope shows. -/
structure PastCall.SparesGiven (call : PastCall) : Prop where
  config : call.before.store.SameFrom call.config call.after.store
  context : call.before.store.SameFrom call.scope.context call.after.store

/-- A call that leaves the store alone leaves alone what it was given. -/
theorem PastCall.sparesGiven_of_store_eq {call : PastCall}
    (h : call.after.store = call.before.store) : call.SparesGiven where
  config _ _ _ hcell := h ▸ hcell
  context _ _ _ hcell := h ▸ hcell

namespace Engine

open StepRecord (Shown shownSteps)

variable {engine : Engine} {pipeline : Pipeline} {invocation : Invocation}
  {off : Bool} {w u : World} {ts : List World} {past : List PastCall} {rest : List Step}
  {scope : Scope} {known : String → Bool} {call : PastCall}

/-! ## §1 Views are among what is given -/

/-- A scope made of records shows the view of the steps. -/
theorem mem_roots_steps {steps : Nat} {done : List StepRecord} :
    Value.shared steps ∈ (StepRecord.roots invocation steps done).map (·.2) :=
  List.mem_cons_of_mem _ (List.mem_cons_self ..)

/-- A scope made of records shows their outputs. -/
theorem mem_roots_of_output {steps : Nat} {done : List StepRecord} {name : String} {v : Value}
    (h : (name, v) ∈ StepRecord.outputs done) :
    v ∈ (StepRecord.roots invocation steps done).map (·.2) := by
  have hentry : ((.text name, v) : Scalar × Value) ∈ Entries.ofFields (StepRecord.outputs done) :=
    List.mem_map.mpr ⟨(name, v), h, rfl⟩
  exact List.mem_map.mpr ⟨_, List.mem_cons_of_mem _ (List.mem_cons_of_mem _ hentry), rfl⟩

/-- A call that leaves alone what it was given leaves the views of its scope alone. -/
theorem sparesViews_of_sparesGiven {steps : Nat} {done : List StepRecord} (h : call.SparesGiven)
    (hscope : call.scope = StepRecord.scope invocation steps done) : call.SparesViews := by
  intro address entries howns hview
  refine h.context address _ ?_ hview
  rw [hscope] at howns ⊢
  -- The scope shows the view of the steps, and that leads to the others.
  cases howns with
  | steps => exact .part mem_roots_steps (.here _)
  | entry hsteps hmem =>
    exact .part mem_roots_steps (.held hsteps (List.mem_map_of_mem hmem) (.here _))

/-- Calls that leave alone what they were given leave the views of the run alone. -/
theorem Reaches.sparesViews (horder : pipeline.InOrder reservedNames known)
    (h : engine.Reaches pipeline invocation off w ts past rest scope u)
    (hspares : ∀ call ∈ past, call.SparesGiven) :
    ∀ call ∈ past, call.SparesViews := by
  induction h with
  | start _ => simp
  | next hreached _ _ _ _ ih =>
    obtain ⟨hspared, hlast⟩ := List.forall_mem_append.mp hspares
    have hearlier := ih hspared
    obtain ⟨done, hscope, -⟩ := hreached.exists_records horder hearlier
    have hcall := sparesViews_of_sparesGiven (List.forall_mem_singleton.mp hlast) hscope
    exact List.forall_mem_append.mpr ⟨hearlier, List.forall_mem_singleton.mpr hcall⟩

/-! ## §2 What becomes of an output -/

/-- **An output since it was recorded**: the view of the steps has grown, and every other container
that the output led to is as it was. -/
structure Settled (steps : Nat) (call : PastCall) (σ : Store) : Prop where
  grown : ∃ old new, new ≠ [] ∧ call.after.store.cell? steps = some (.view old) ∧
    σ.cell? steps = some (.view (old ++ new))
  kept : ∀ address cell, address ≠ steps → call.after.store.Leads call.output address →
    call.after.store.cell? address = some cell → σ.cell? address = some cell

namespace Settled

variable {steps : Nat} {σ τ : Store} {output : Value} {more : Scalar × Value}

/-- An output still leads to what it led to. -/
theorem leads (h : Settled steps call σ) {address : Nat}
    (hleads : call.after.store.Leads call.output address) :
    σ.Leads call.output address := by
  obtain ⟨old, new, -, hold, hnew⟩ := h.grown
  refine hleads.mono fun other cell hother hcell => ?_
  by_cases hsteps : other = steps
  · -- The view of the steps still holds what it held.
    subst hsteps
    obtain rfl := Option.some.inj (hold.symm.trans hcell)
    refine ⟨_, hnew, ?_⟩
    show old.map (·.2) ⊆ (old ++ new).map (·.2)
    rw [List.map_append]
    exact List.subset_append_left _ _
  · exact ⟨cell, h.kept other cell hsteps hother hcell, List.Subset.refl _⟩

theorem of_extends (h : Settled steps call σ) (hgrown : σ.Extends τ) : Settled steps call τ := by
  obtain ⟨old, new, hne, hold, hnew⟩ := h.grown
  exact ⟨⟨old, new, hne, hold, hgrown _ _ hnew⟩,
    fun address cell hsteps hleads hcell => hgrown _ _ (h.kept address cell hsteps hleads hcell)⟩

/-- A unit that leaves alone what its scope shows leaves alone every output that the scope shows. -/
theorem of_sameFrom {roots : Entries} (h : Settled steps call σ) (hsame : σ.SameFrom (.map roots) τ)
    (hsteps : Value.shared steps ∈ roots.map (·.2)) (houtput : call.output ∈ roots.map (·.2)) :
    Settled steps call τ := by
  obtain ⟨old, new, hne, hold, hnew⟩ := h.grown
  refine ⟨⟨old, new, hne, hold, hsame _ _ (.part hsteps (.here _)) hnew⟩, ?_⟩
  intro address cell hother hleads hcell
  exact hsame _ _ (.part houtput (h.leads hleads)) (h.kept address cell hother hleads hcell)

/-- Cells that were there are as they were after an output was recorded, but for
the view of the steps. -/
theorem cell?_recorded {address : Nat} {cell entry view : Cell} (hother : address ≠ steps)
    (hcell : σ.cell? address = some cell) :
    ((σ.alloc entry).2.set steps view).cell? address = some cell := by
  rw [Store.cell?_set_of_ne hother.symm]
  exact Store.extends_alloc σ entry _ _ hcell

/-- Recording another output leaves an output alone. -/
theorem record {entry : Cell} {old new : Entries} (h : Settled steps call σ)
    (hview : σ.cell? steps = some (.view old)) :
    Settled steps call ((σ.alloc entry).2.set steps (.view (old ++ new))) := by
  obtain ⟨first, since, hne, hfirst, hsince⟩ := h.grown
  obtain rfl := Cell.view.inj (Option.some.inj (hsince.symm.trans hview))
  have hlt : steps < σ.cells.size := Store.lt_size_of_cell? hview
  refine ⟨⟨first, since ++ new, by simp [hne], hfirst, ?_⟩, ?_⟩
  · rw [← List.append_assoc]
    exact Store.cell?_set_self (by rw [Store.size_alloc]; omega)
  · intro address cell hother hleads hcell
    exact cell?_recorded hother (h.kept address cell hother hleads hcell)

/-- An output that is just recorded. -/
theorem of_recorded {entry : Cell} {old new : Entries}
    (hview : call.after.store.cell? steps = some (.view old)) (hne : new ≠ []) :
    Settled steps call ((call.after.store.alloc entry).2.set steps (.view (old ++ new))) := by
  have hlt : steps < call.after.store.cells.size := Store.lt_size_of_cell? hview
  refine ⟨⟨old, new, hne, hview, Store.cell?_set_self (by rw [Store.size_alloc]; omega)⟩, ?_⟩
  intro address cell hother _ hcell
  exact cell?_recorded hother hcell

/-- **An output is as it was** exactly if it does not lead to the view of the steps. -/
theorem sameFrom_iff (h : Settled steps call σ) :
    call.after.store.SameFrom call.output σ ↔ ¬ call.after.store.Leads call.output steps := by
  constructor
  · intro hsame hleads
    obtain ⟨old, new, hne, hold, hnew⟩ := h.grown
    -- The view would have to be what it was, but it has grown.
    have hview := Cell.view.inj (Option.some.inj ((hsame _ _ hleads hold).symm.trans hnew))
    exact hne (List.self_eq_append_right.mp hview)
  · intro hapart address cell hleads hcell
    exact h.kept address cell (fun heq => hapart (heq ▸ hleads)) hleads hcell

end Settled

/-- **What becomes of the outputs** of a run whose units leave alone what they are given. -/
theorem Reaches.settled (horder : pipeline.InOrder reservedNames known)
    (h : engine.Reaches pipeline invocation off w ts past rest scope u)
    (hspares : ∀ call ∈ past, call.SparesGiven) :
    ∀ call ∈ past, Settled w.store.cells.size call u.store := by
  have hviews := h.sparesViews horder hspares
  induction h with
  | start _ => simp
  | @next ts before past step rest scope scope' u v u' config output σ hreached
    _ hresolve _ hend ih =>
    obtain ⟨hearlier, hlast⟩ := List.forall_mem_append.mp hspares
    obtain ⟨hearlierViews, hlastViews⟩ := List.forall_mem_append.mp hviews
    obtain ⟨done, rfl, hshown, houtputs⟩ := hreached.exists_records horder hearlierViews
    obtain ⟨hnew, hreserved⟩ := hreached.name_notMem horder houtputs (List.mem_cons_self ..)
    have hviewsKept := List.forall_mem_singleton.mp hlastViews
    obtain ⟨hafter, -, -, hstore⟩ := records_next hshown hresolve hviewsKept hnew hreserved hend
    rw [hstore, shownSteps, List.map_append, Entries.ofFields_append]
    refine List.forall_mem_append.mpr ⟨fun call hcall => ?_, List.forall_mem_singleton.mpr ?_⟩
    · -- An earlier output: the bindings are resolved, the unit is called, and its output is
      -- recorded.
      have houtput : (call.step.name, call.output) ∈ StepRecord.outputs done :=
        houtputs ▸ List.mem_map_of_mem hcall
      have hresolved :=
        (ih hearlier hearlierViews call hcall).of_extends (Binding.resolve_extends hresolve)
      have hgiven := (List.forall_mem_singleton.mp hlast).context
      exact (hresolved.of_sameFrom hgiven mem_roots_steps
        (mem_roots_of_output houtput)).record hafter.all
    · exact Settled.of_recorded hafter.all (by simp)

/-! ## §3 Which outputs are stable -/

/-- The table that serves a pipeline by expressions. -/
def expressionTable (pipeline : Pipeline) : PipelineTable :=
  ⟨[(pipeline.route, pipeline)], [(Units.expressionName, some Units.expression)]⟩

/-- A pipeline whose first step hands out the view of the steps. -/
def viewPipeline : Pipeline where
  route := ⟨"svc", "run"⟩
  steps :=
    [⟨"a", "expr", [("value", .expression ⟨"steps", .path [.name "steps"]⟩)], ""⟩,
      ⟨"b", "expr", [("value", .literal (.int 1))], ""⟩]

/-- A run of that pipeline at its end: the output of the first step is the view itself, which showed
no step then and does now. -/
theorem exists_reaches_viewPipeline :
    ∃ a b scope u, (Engine.mk (expressionTable viewPipeline) {}).Reaches viewPipeline {} false {} []
      [a, b] [] scope u ∧
      (∀ call ∈ [a, b], call.SparesGiven) ∧
        (a.output = .shared 0 ∧ a.after.store.cell? 0 = some (.view []) ∧
        u.store.cell? 0 ≠ some (.view [])) ∧ b.step.name = "b" ∧ b.output = .int 1 := by
  have hreached : (Engine.mk (expressionTable viewPipeline) {}).Reaches viewPipeline {} false {}
      (([] ++ []) ++ []) (([] ++ [_]) ++ [_]) [] _ _ :=
    .next (.next (.start rfl) rfl rfl (.done _ _) rfl) rfl rfl (.done _ _) rfl
  refine ⟨_, _, _, _, hreached, ?_, ⟨rfl, rfl, ?_⟩, rfl, rfl⟩
  · intro call hcall
    apply PastCall.sparesGiven_of_store_eq
    rcases List.mem_cons.mp hcall with rfl | hsecond
    · rfl
    · obtain rfl := List.mem_singleton.mp hsecond
      rfl
  · intro hsame
    cases hsame

/-- **Stable outputs**: in a run of a checked pipeline whose units leave alone what they are given,
the scope has the output of each step that ran under its name, among the outputs and behind the
steps; and that output is as it was when the unit answered exactly if it does not lead to the view
of the steps. A run that succeeds tells the outputs that its scope has at the end. -/
theorem stable_iff {pipelines : List Pipeline}
    (hchecked : PipelineProblem.find reservedNames known pipelines = [])
    (hpipeline : pipeline ∈ pipelines) :
    (∀ {ts past rest scope u}, engine.Reaches pipeline invocation off w ts past rest scope u →
        (∀ call ∈ past, call.SparesGiven) → ∀ call ∈ past,
        scope.outputs.find? call.step.name = some call.output ∧
        scope.roots.field? call.step.name = some call.output ∧
        Expression.valueAt u.store
          [.name Scope.stepsRoot, .name call.step.name, .name "output"] scope.context =
          .ok call.output ∧
        (call.after.store.SameFrom call.output u.store ↔
          ¬ call.after.store.Leads call.output scope.steps)) ∧
      ∀ {ts u value outputs}, (engine.run pipeline invocation w).Ends off ts u
        (.ok (.success value outputs)) →
        ∃ past scope, engine.Reaches pipeline invocation off w ts past [] scope u ∧
          scope.outputs = outputs := by
  have horder := (PipelineProblem.find_eq_nil_iff.mp hchecked).1 pipeline hpipeline
  refine ⟨?_, exists_reaches_of_success⟩
  intro ts past rest scope u hreached hspares call hcall
  have hviews := hreached.sparesViews horder hspares
  have hsees := hreached.sees horder hviews (.refl _)
  obtain ⟨houtput, hroot, hlonghand⟩ := hsees.output _ _ (List.mem_map_of_mem hcall)
  obtain ⟨done, rfl, -⟩ := hreached.exists_records horder hviews
  exact ⟨houtput, hroot, hlonghand, (hreached.settled horder hspares call hcall).sameFrom_iff⟩

/-- The second step of the pipeline has a stable output. -/
theorem stable_second : PipelineProblem.find reservedNames (fun _ => true) [viewPipeline] = [] ∧
    ∃ past scope u, (Engine.mk (expressionTable viewPipeline) {}).Reaches viewPipeline {} false {}
      [] past [] scope u ∧
      (∀ call ∈ past, call.SparesGiven) ∧ ∃ call ∈ past, call.step.name = "b" ∧
        scope.outputs.find? "b" = some (.int 1) ∧
          call.after.store.SameFrom call.output u.store := by
  have hchecked : PipelineProblem.find reservedNames (fun _ => true) [viewPipeline] = [] := rfl
  obtain ⟨a, b, scope, u, hreached, hspares, -, hname, houtput⟩ := exists_reaches_viewPipeline
  have hmem : b ∈ [a, b] := by simp
  obtain ⟨hfound, -, -, hstable⟩ :=
    (stable_iff hchecked (List.mem_cons_self ..)).1 hreached hspares b hmem
  rw [hname, houtput] at hfound
  -- A number leads nowhere, in particular not to the view of the steps.
  refine ⟨hchecked, [a, b], scope, u, hreached, hspares, b, hmem, hname, hfound, hstable.mpr ?_⟩
  rw [houtput]
  exact Store.not_leads_atom _

/-- **Not all outputs are stable**: when the second step of the pipeline has run, the output of the
first one shows that step too. -/
theorem not_forall_stable :
    ¬ ∀ (known : String → Bool) (pipelines : List Pipeline) (engine : Engine)
    (pipeline : Pipeline) (invocation : Invocation) (off : Bool) (w u : World) (ts : List World)
    (past : List PastCall) (rest : List Step) (scope : Scope),
      PipelineProblem.find reservedNames known pipelines = [] →
    pipeline ∈ pipelines → engine.Reaches pipeline invocation off w ts past rest scope u →
    (∀ call ∈ past, call.SparesGiven) →
    ∀ call ∈ past, call.after.store.SameFrom call.output u.store := by
  intro h
  obtain ⟨a, b, scope, u, hreached, hspares, ⟨houtput, hbefore, hnow⟩, -⟩ :=
    exists_reaches_viewPipeline
  have hsame := h (fun _ => true) [viewPipeline] _ _ _ _ _ _ _ _ _ _ rfl
    (List.mem_cons_self ..) hreached hspares a (List.mem_cons_self ..)
  rw [houtput] at hsame
  exact hnow (hsame 0 _ (.here 0) hbefore)

end Engine

end Switchyard
