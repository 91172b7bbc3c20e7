import Switchyard.Proofs.Engine.Passage
import Switchyard.Proofs.Engine.RunIsFold
import Switchyard.Proofs.Expression.Paths

/-!
# What a step sees

The outputs of the steps that ran are kept four times: in order among the outputs, in the
view of the steps, in a view of their own, and under the name of the step. In a table that
was built the four always agree, since no two steps of a pipeline have one name and no step
has the name of a root.

Main statement: `sees_of_build`.
-/

namespace Switchyard

/-! ## §1 What a scope made of records shows -/

namespace Outputs

variable {outputs : Outputs} {name : String} {v : Value}

/-- Outputs are looked up as the fields that they make. -/
theorem find?_eq_field? : outputs.find? name = (Entries.ofFields outputs).field? name := by
  induction outputs with
  | nil => rfl
  | cons entry rest ih =>
    rw [Entries.field?_ofFields_cons, ← ih]
    by_cases h : entry.1 = name
    · simp [find?, h]
    · simp [find?, h]

/-- Outputs with different names are all found. -/
theorem find?_of_mem (hdistinct : outputs.names.Nodup) (h : (name, v) ∈ outputs) :
    outputs.find? name = some v := by
  rw [find?_eq_field?]
  exact Entries.field?_ofFields_of_mem hdistinct h

end Outputs

/-- **What expressions see** in a scope, given the input of the invocation and the outputs of the
steps that ran: the roots are the input, the steps and one root for each output, the steps show just
the outputs, in order, and each output is the same value among the outputs, behind the steps, and
under its own name. -/
structure Scope.Sees (scope : Scope) (σ : Store) (input : Value) (outputs : Outputs) : Prop where
  recorded : scope.outputs = outputs
  roots : scope.roots.map (·.1) = (inputRoot :: stepsRoot :: outputs.names).map .text
  input : scope.roots.field? inputRoot = some input
  steps : ∃ view entries, scope.roots.field? stepsRoot = some view ∧
    σ.entries? view = some entries ∧
    entries.map (·.1) = outputs.names.map .text
  output : ∀ name value, (name, value) ∈ outputs →
    scope.outputs.find? name = some value ∧ scope.roots.field? name = some value ∧
      Expression.valueAt σ [.name stepsRoot, .name name, .name "output"] scope.context = .ok value

namespace StepRecord

variable {invocation : Invocation} {steps : Nat} {done : List StepRecord} {σ : Store}
  {r : StepRecord}

theorem entries?_context :
    σ.entries? (scope invocation steps done).context = some (roots invocation steps done) := rfl

theorem field?_roots_input :
    (roots invocation steps done).field? Scope.inputRoot = some invocation.input := by
  rw [roots, Entries.field?_ofFields_cons, if_pos rfl]

theorem field?_roots_steps :
    (roots invocation steps done).field? Scope.stepsRoot = some (.shared steps) := by
  rw [roots, Entries.field?_ofFields_cons,
    if_neg (show Scope.inputRoot ≠ Scope.stepsRoot by decide),
      Entries.field?_ofFields_cons, if_pos rfl]

/-- The roots have different names if those of the steps are different and not reserved. -/
theorem field?_roots_of_mem (hnodup : (reservedNames ++ done.map (·.name)).Nodup) (hr : r ∈ done) :
    (roots invocation steps done).field? r.name = some r.output := by
  have hmem : (r.name, r.output) ∈
      (Scope.inputRoot, invocation.input) :: (Scope.stepsRoot, Value.shared steps) ::
      outputs done :=
    List.mem_cons_of_mem _ (List.mem_cons_of_mem _ (List.mem_map_of_mem hr))
  exact Entries.field?_ofFields_of_mem (by rwa [names_roots]) hmem

/-- There is no root under the name of a step that has not run. -/
theorem field?_roots_of_notMem {name : String} (hreserved : name ∉ reservedNames)
    (hnew : name ∉ done.map (·.name)) : (roots invocation steps done).field? name = none := by
  refine Entries.field?_ofFields_of_notMem ?_
  rw [names_roots, List.mem_append]
  exact not_or.mpr ⟨hreserved, hnew⟩

theorem Shown.entries?_steps (h : Shown steps done σ) :
    σ.entries? (.shared steps) = some (shownSteps done) := by
  simp only [Store.entries?, Store.shape, h.all]

theorem Shown.entries?_entry (h : Shown steps done σ) (hr : r ∈ done) :
    σ.entries? (.shared r.entry) = some r.shownOutput := by
  simp only [Store.entries?, Store.shape, h.each r hr]

/-- Behind the steps, the output of a step that ran is found under its name. -/
theorem Shown.valueAt_output (h : Shown steps done σ) (hnodup : (done.map (·.name)).Nodup)
    (hr : r ∈ done) : Expression.valueAt σ [.name Scope.stepsRoot, .name r.name, .name "output"]
      (scope invocation steps done).context =
      .ok r.output := by
  have hentry : (shownSteps done).field? r.name = some (.shared r.entry) := by
    refine Entries.field?_ofFields_of_mem ?_ (List.mem_map.mpr ⟨r, hr, rfl⟩)
    rw [List.map_map]
    exact hnodup
  have houtput : r.shownOutput.field? "output" = some r.output := by
    rw [shownOutput, Entries.field?_ofFields_cons, if_pos rfl]
  -- One segment after the other: from the roots to the steps, to the step, to its output.
  rw [Expression.valueAt,
    Expression.walk_cons_of_ok
      (Expression.follow_of_field (.name Scope.stepsRoot) entries?_context field?_roots_steps),
    Expression.walk_cons_of_ok (Expression.follow_of_field (.name r.name) h.entries?_steps hentry),
    Expression.walk_cons_of_ok
      (Expression.follow_of_field (.name "output") (h.entries?_entry hr) houtput)]
  rfl

/-- **A scope made of records** shows the records, if the views are up to date. -/
theorem sees (h : Shown steps done σ) (hnodup : (reservedNames ++ done.map (·.name)).Nodup) :
    (scope invocation steps done).Sees σ invocation.input (outputs done) where
  recorded := rfl
  roots := by
    show (roots invocation steps done).map (·.1) = _
    simp [roots, Entries.ofFields, Outputs.names]
  input := field?_roots_input
  steps := by
    refine ⟨.shared steps, shownSteps done, field?_roots_steps, h.entries?_steps, ?_⟩
    simp [shownSteps, Entries.ofFields]
  output := by
    intro name value hmem
    have hdistinct : (done.map (·.name)).Nodup := (List.nodup_append.mp hnodup).2.1
    obtain ⟨r, hr, heq⟩ := List.mem_map.mp hmem
    obtain ⟨rfl, rfl⟩ := Prod.mk.inj heq
    refine ⟨?_, field?_roots_of_mem hnodup hr, h.valueAt_output hdistinct hr⟩
    rw [← names_outputs] at hdistinct
    exact Outputs.find?_of_mem hdistinct hmem

end StepRecord

/-! ## §2 What a step of a run sees -/

namespace Engine

variable {engine : Engine} {pipeline : Pipeline} {invocation : Invocation}
  {off : Bool} {w u : World} {ts : List World} {past : List PastCall} {rest : List Step}
  {scope : Scope}

/-- The names of the steps that ran are different from each other and from the reserved ones. -/
theorem Reaches.names_nodup {known : String → Bool} (horder : pipeline.InOrder reservedNames known)
    (h : engine.Reaches pipeline invocation off w ts past rest scope u) :
    (reservedNames ++ past.map (·.step.name)).Nodup := by
  have hsteps : past.map (·.step) ++ rest = pipeline.steps := h.steps_eq
  have hdistinct := horder.distinct
  rw [Pipeline.stepNames, ← hsteps, List.map_append, List.map_map] at hdistinct
  refine List.Nodup.append (by decide) (List.nodup_append.mp hdistinct).1 ?_
  intro name hreserved hmem
  obtain ⟨call, hcall, rfl⟩ := List.mem_map.mp hmem
  refine (horder.named call.step ?_).2 hreserved
  rw [← hsteps]
  exact List.mem_append_left _ (List.mem_map_of_mem hcall)

/-- **What a step sees** in a pipeline that is in order, also while its bindings are resolved
and cells are added. -/
theorem Reaches.sees {known : String → Bool} {σ : Store}
    (horder : pipeline.InOrder reservedNames known)
    (h : engine.Reaches pipeline invocation off w ts past rest scope u)
    (hspares : ∀ call ∈ past, call.SparesViews) (hgrown : u.store.Extends σ) :
    scope.Sees σ invocation.input (PastCall.outputs past) := by
  obtain ⟨done, rfl, hshown, houtputs⟩ := h.exists_records horder hspares
  have hnodup := h.names_nodup horder
  rw [← names_eq_of_outputs_eq houtputs] at hnodup
  rw [← houtputs]
  exact StepRecord.sees (hshown.of_keepsViews hgrown.keepsViews) hnodup

/-- **What a step sees** in a table that was built: the steps before it have run, each
once and in order, the run goes on with the step, and all there is to see is the input and
what they answered. -/
theorem sees_of_build {catalog catalog' : Catalog} {pipelines : List Pipeline}
    {table : PipelineTable} {route : Route} {hooks : Hooks} {step : Step}
    (hbuild : PipelineTable.build catalog pipelines = (.ok table, catalog'))
    (hroute : table.find? route = some pipeline)
    (hreached : (Engine.mk table hooks).Reaches pipeline invocation off w ts past
      (step :: rest) scope u)
    (hspares : ∀ call ∈ past, call.SparesViews) :
    past.map (·.step) ++ step :: rest = pipeline.steps ∧
      ((Engine.mk table hooks).run pipeline invocation w).after ts =
        (Engine.mk table hooks).runSteps invocation pipeline past.length (step :: rest) scope u ∧
      ∀ σ, u.store.Extends σ → scope.Sees σ invocation.input (PastCall.outputs past) := by
  obtain ⟨known, horder⟩ := (PipelineTable.sound_of_build hbuild).inOrder hroute
  exact ⟨hreached.steps_eq, hreached.after_eq, fun σ hgrown => hreached.sees horder hspares hgrown⟩

/-- The second step of the echoing pipeline sees what the first one echoed. -/
theorem second_sees_first :
    PipelineTable.build echoCatalog [echoPipeline] = (.ok echoTable, echoCatalog) ∧
    echoTable.find? ⟨"echo", "twice"⟩ = some echoPipeline ∧
    ∃ step past scope u,
      (Engine.mk echoTable {}).Reaches echoPipeline { input := .text "x" } false {} [] past [step]
        scope u ∧
      (∀ call ∈ past, call.SparesViews) ∧
      scope.Sees u.store (.text "x") [("first", .text "x")] := by
  have hbuild : PipelineTable.build echoCatalog [echoPipeline] = (.ok echoTable, echoCatalog) := rfl
  have hroute : echoTable.find? ⟨"echo", "twice"⟩ = some echoPipeline := rfl
  -- The first step has run: its unit echoed the input, and it did not touch the store.
  have hreached : (Engine.mk echoTable {}).Reaches echoPipeline { input := .text "x" } false {}
      ([] ++ []) ([] ++ [_]) [_] _ _ :=
    .next (.start rfl) rfl rfl (.done _ _) rfl
  refine ⟨hbuild, hroute, _, _, _, _, hreached, ?spares,
    (sees_of_build hbuild hroute hreached ?spares).2.2 _ (.refl _)⟩
  intro call hcall
  obtain rfl := List.mem_singleton.mp hcall
  exact PastCall.sparesViews_of_keepsViews fun _ _ hview => hview

end Engine

end Switchyard
