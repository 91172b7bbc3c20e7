import Switchyard.Proofs.Binding.Parts
import Switchyard.Proofs.Engine.Failures
import Switchyard.Proofs.Engine.Sight

/-!
# Steps only see backwards

A path that names the step it belongs to, or a later one, finds nothing: neither among the roots nor
behind the steps is there anything under the name of a step that has not run. It makes no difference
where in the bindings the path is, or what the steps before have answered. So the run ends with that
step, and no later unit is called.

Main statement: `ahead_fails_of_build`.
-/

namespace Switchyard

/-! ## §1 Paths that name a step -/

/-- **A path names a step**: it begins with the name, or behind the root of the steps
it goes on with it. -/
inductive Expression.RefersTo (name : String) : List Expression.Segment → Prop
  | shorthand {segment : Expression.Segment} {rest : List Expression.Segment} :
      segment.key = name → RefersTo name (segment :: rest)
  | longhand {first second : Expression.Segment} {rest : List Expression.Segment} :
      first.key = Scope.stepsRoot → second.key = name → RefersTo name (first :: second :: rest)

namespace StepRecord

variable {steps : Nat} {done : List StepRecord} {σ : Store}

/-- **A path that names a step that has not run** leads nowhere, as long as the
views stay as they are. -/
theorem evaluate_refersTo {name : String} {segments : List Expression.Segment}
    (invocation : Invocation) (h : Shown steps done σ) (hreserved : name ∉ reservedNames)
    (hnew : name ∉ done.map (·.name)) (hrefers : Expression.RefersTo name segments) :
    ∃ walked segment, ∀ τ, σ.Extends τ →
      (Expression.Tree.path segments).evaluate τ (scope invocation steps done).context =
        .error (.missing walked segment .absent) := by
  cases hrefers with
  | @shorthand segment rest hkey =>
    refine ⟨[segment], segment, fun τ _ => ?_⟩
    apply Expression.walk_cons_of_error
    apply Expression.follow_of_no_field segment entries?_context
    rw [hkey]
    exact field?_roots_of_notMem hreserved hnew
  | @longhand first second rest hfirst hsecond =>
    refine ⟨[first, second], second, fun τ hgrown => ?_⟩
    -- The first segment leads to the view of the steps, which holds just those that ran.
    have hsteps : Expression.follow τ ([] ++ [first]) first (scope invocation steps done).context =
        .ok (.shared steps) := by
      apply Expression.follow_of_field first entries?_context
      rw [hfirst]
      exact field?_roots_steps
    have hentries : τ.entries? (.shared steps) = some (shownSteps done) :=
      (h.of_keepsViews hgrown.keepsViews).entries?_steps
    show Expression.walk τ [] (first :: second :: rest) _ = _
    rw [Expression.walk_cons_of_ok hsteps]
    apply Expression.walk_cons_of_error
    apply Expression.follow_of_no_field second hentries
    rw [hsecond]
    refine Entries.field?_ofFields_of_notMem ?_
    rw [List.map_map]
    exact hnew

end StepRecord

/-! ## §2 Runs that come to such a path -/

namespace Engine

open Expression (Tree Segment RefersTo EvalProblem)

variable {engine : Engine} {pipeline : Pipeline} {invocation : Invocation}
  {off : Bool} {w u : World} {ts : List World} {past : List PastCall} {rest : List Step}
  {scope : Scope} {step later : Step} {index : Nat} {segments : List Segment}
  {before after : List Tree} {known : String → Bool}

/-- **Bindings with a path ahead** do not resolve, and what they fail with is that the path leads
nowhere, or comes from a part before it. -/
theorem Reaches.exists_unresolved (horder : pipeline.InOrder reservedNames known)
    (h : engine.Reaches pipeline invocation off w ts past rest scope u)
    (hspares : ∀ call ∈ past, call.SparesViews) (hlater : later ∈ rest)
    (hparts : (Binding.map step.bindings).parts = before ++ .path segments :: after)
    (hrefers : RefersTo later.name segments) :
    ∃ problem, Binding.resolveRecord scope.context step.bindings u.store = .error problem ∧
      (problem.raised.toldKind = .fieldNotFound ∨ ∃ part ∈ before,
        part.Fails u.store scope.context problem) := by
  obtain ⟨done, rfl, hshown, houtputs⟩ := h.exists_records horder hspares
  obtain ⟨hnew, hreserved⟩ := h.name_notMem horder houtputs hlater
  obtain ⟨walked, segment, hmisses⟩ :=
    StepRecord.evaluate_refersTo invocation hshown hreserved hnew hrefers
  obtain ⟨problem, hresolve, hproblem⟩ :=
    (Binding.resolve_follows _ (.map step.bindings) u.store).exists_error hparts hmisses
  refine ⟨problem, hresolve, ?_⟩
  rcases hproblem with rfl | hearlier
  · exact .inl rfl
  · exact .inr hearlier

/-- What is left of the steps begins with the step whose index is the number of calls. -/
theorem Reaches.rest_eq (h : engine.Reaches pipeline invocation off w ts past rest scope u) :
    rest = pipeline.steps.drop past.length := by
  rw [← h.steps_eq, List.drop_left' (List.length_map ..)]

/-- The step whose index is the number of calls is the one that is due. -/
theorem Reaches.rest_eq_cons (h : engine.Reaches pipeline invocation off w ts past rest scope u)
    (hstep : pipeline.steps[past.length]? = some step) : rest = step :: rest.tail := by
  rw [← List.head?_drop, ← h.rest_eq] at hstep
  exact List.eq_cons_of_mem_head? hstep

/-- A step whose bindings resolve is not one with a path ahead. -/
theorem Reaches.length_ne {due : Step} {resolved : Value × Store}
    (horder : pipeline.InOrder reservedNames known) (hstep : pipeline.steps[index]? = some step)
    (hlater : later ∈ pipeline.steps.drop index)
    (hparts : (Binding.map step.bindings).parts = before ++ .path segments :: after)
    (hrefers : RefersTo later.name segments)
    (h : engine.Reaches pipeline invocation off w ts past (due :: rest) scope u)
    (hspares : ∀ call ∈ past, call.SparesViews)
    (hresolve : Binding.resolveRecord scope.context due.bindings u.store = .ok resolved) :
    past.length ≠ index := by
  rintro rfl
  rw [← h.rest_eq] at hlater
  obtain ⟨rfl, -⟩ := List.cons.inj (h.rest_eq_cons hstep)
  obtain ⟨problem, hproblem, -⟩ := h.exists_unresolved horder hspares hlater hparts hrefers
  rw [hproblem] at hresolve
  cases hresolve

/-- **No run gets past** a step whose bindings do not resolve. -/
theorem Reaches.length_le (horder : pipeline.InOrder reservedNames known)
    (hstep : pipeline.steps[index]? = some step) (hlater : later ∈ pipeline.steps.drop index)
    (hparts : (Binding.map step.bindings).parts = before ++ .path segments :: after)
    (hrefers : RefersTo later.name segments)
    (h : engine.Reaches pipeline invocation off w ts past rest scope u)
    (hspares : ∀ call ∈ past, call.SparesViews) :
    past.length ≤ index := by
  induction h with
  | start _ => exact Nat.zero_le _
  | @next ts before' past due rest scope scope' u v u' config output σ hreached _ hresolve _ _ ih =>
    have hearlier : ∀ call ∈ past, call.SparesViews := (List.forall_mem_append.mp hspares).1
    have hle := ih hearlier
    -- The step at the index itself is not passed, since its unit was not called.
    have hne := hreached.length_ne horder hstep hlater hparts hrefers hearlier hresolve
    rw [List.length_append, List.length_singleton]
    omega

/-- **A run ends with the step** that it has come to if the bindings of that step do not resolve; if
it was called off before, that is what it is told. -/
theorem Reaches.after_eq_of_unresolved {problem : EvalProblem}
    (h : engine.Reaches pipeline invocation off w ts past (step :: rest) scope u)
    (hresolve : Binding.resolveRecord scope.context step.bindings u.store = .error problem) :
    ∃ v failure, (engine.run pipeline invocation w).after ts = .done v (.ok (.failed failure [])) ∧
      v.surroundings = u.surroundings ∧ failure.stepName = some step.name ∧
      failure.stepIndex = some (past.length : Int) ∧
      (u.surroundings.isGiven invocation.signal = false →
        failure.Tells step past.length problem.raised) := by
  rw [h.after_eq, runSteps]
  cases hgiven : u.surroundings.isGiven invocation.signal with
  | true =>
    exact ⟨u, ⟨.cancelled, "Invocation cancelled", some step.name, some (past.length : Int), []⟩,
      rfl, rfl, rfl, rfl,
      fun hcalm => by cases hcalm⟩
  | false =>
    obtain ⟨failure, hfailure, htells⟩ :=
      failureAt_of_plain (Raised.plain_of_evalProblem problem) step past.length
    rw [Raised.passedOn_evalProblem] at htells
    rw [if_neg (by simp), runStep_unresolved hresolve, endWithError, hfailure]
    refine ⟨_, failure, rfl, ?_, htells.stepName, htells.stepIndex, fun _ => htells⟩
    rw [reportFailure_surroundings, announce_surroundings]

/-- **A path ahead never succeeds** in a table that was built. Where the bindings of a step
have a path that names the step itself or a later one, no unit from that step on is ever
called, and a run that comes to the step ends with it: since the path leads nowhere, unless a
part before it has failed. -/
theorem ahead_fails_of_build {catalog catalog' : Catalog} {pipelines : List Pipeline}
    {table : PipelineTable} {route : Route} {hooks : Hooks}
    (hbuild : PipelineTable.build catalog pipelines = (.ok table, catalog'))
    (hroute : table.find? route = some pipeline) (hstep : pipeline.steps[index]? = some step)
    (hlater : later ∈ pipeline.steps.drop index)
    (hparts : (Binding.map step.bindings).parts = before ++ .path segments :: after)
    (hrefers : RefersTo later.name segments) :
    (∀ {ts past called config},
      (Engine.mk table hooks).Calls pipeline invocation off w ts past called config →
        (∀ call ∈ past, call.SparesViews) → past.length < index ∧
          ∃ rest scope u, ((Engine.mk table hooks).run pipeline invocation w).after ts =
            (Engine.mk table hooks).runSteps invocation pipeline past.length
              (called :: rest) scope u) ∧
      ∀ {ts past rest scope u}, (Engine.mk table hooks).Reaches pipeline invocation off w ts past
        rest scope u →
        (∀ call ∈ past, call.SparesViews) → past.length = index →
        ((Engine.mk table hooks).run pipeline invocation w).after ts =
          (Engine.mk table hooks).runSteps invocation pipeline index rest scope u ∧
        ∃ v failure, ((Engine.mk table hooks).run pipeline invocation w).after ts =
          .done v (.ok (.failed failure [])) ∧
          v.surroundings = u.surroundings ∧ failure.stepName = some step.name ∧
            failure.stepIndex = some (index : Int) ∧
          (u.surroundings.isGiven invocation.signal = false →
            failure.kind = .fieldNotFound ∨ ∃ part ∈ before, ∃ problem,
              part.Fails u.store scope.context problem ∧
                failure.Tells step index problem.raised) := by
  obtain ⟨known, horder⟩ := (PipelineTable.sound_of_build hbuild).inOrder hroute
  refine ⟨?_, ?_⟩
  · rintro ts past called config ⟨rest, scope, u, σ, hreached, -, hresolve⟩ hspares
    have hle := hreached.length_le horder hstep hlater hparts hrefers hspares
    -- A unit that is called is not that of the step at the index.
    have hne := hreached.length_ne horder hstep hlater hparts hrefers hspares hresolve
    exact ⟨by omega, rest, scope, u, hreached.after_eq⟩
  · rintro ts past rest scope u hreached hspares rfl
    refine ⟨hreached.after_eq, ?_⟩
    rw [← hreached.rest_eq] at hlater
    obtain ⟨problem, hproblem, hwhy⟩ :=
      hreached.exists_unresolved horder hspares hlater hparts hrefers
    rw [hreached.rest_eq_cons hstep] at hreached
    obtain ⟨v, failure, hafter, hsurroundings, hname, hindex, htells⟩ :=
      hreached.after_eq_of_unresolved hproblem
    refine ⟨v, failure, hafter, hsurroundings, hname, hindex, fun hcalm => ?_⟩
    rcases hwhy with hkind | ⟨part, hpart, hfails⟩
    · exact .inl ((htells hcalm).kind.trans hkind)
    · exact .inr ⟨part, hpart, problem, hfails, htells hcalm⟩

/-- A step that asks for its own output, behind that of the first step. -/
def aheadStep : Step :=
  ⟨"second", "echo", [("value", .expression ⟨"first + second",
    .binary "+" (.path [.name "first"]) (.path [.name "second"])⟩)], ""⟩

/-- A pipeline whose second step asks for its own output. -/
def aheadPipeline : Pipeline where
  route := ⟨"echo", "twice"⟩
  steps :=
    [⟨"first", "echo", [("value", .expression ⟨"input", .path [.name "input"]⟩)], ""⟩, aheadStep]

/-- The table that serves it. -/
def aheadTable : PipelineTable :=
  ⟨[(⟨"echo", "twice"⟩, aheadPipeline)], [("echo", some (Units.probe "echo" Units.echo))]⟩

/-- The second step of that pipeline is come to, and the run ends with it. -/
theorem second_fails_ahead :
    PipelineTable.build echoCatalog [aheadPipeline] = (.ok aheadTable, echoCatalog) ∧
    aheadTable.find? ⟨"echo", "twice"⟩ = some aheadPipeline ∧
    ∃ past rest scope u, (Engine.mk aheadTable {}).Reaches aheadPipeline
      { input := .text "x" } false {} [] past rest
        scope u ∧ past.length = 1 ∧
      ∃ v failure, ((Engine.mk aheadTable {}).run aheadPipeline { input := .text "x" } {}).after
          [] =
          .done v (.ok (.failed failure [])) ∧
        failure.stepName = some "second" ∧ failure.stepIndex = some 1 := by
  have hbuild : PipelineTable.build echoCatalog [aheadPipeline] = (.ok aheadTable, echoCatalog) :=
    rfl
  have hroute : aheadTable.find? ⟨"echo", "twice"⟩ = some aheadPipeline := rfl
  have hstep : aheadPipeline.steps[1]? = some aheadStep := rfl
  have hlater : aheadStep ∈ aheadPipeline.steps.drop 1 := List.mem_cons_self ..
  -- The path comes second in the sum, behind the one that names the first step.
  have hparts : (Binding.map aheadStep.bindings).parts =
      [.path [.name "first"]] ++ .path [.name "second"] :: [_] := rfl
  have hreached : (Engine.mk aheadTable {}).Reaches aheadPipeline { input := .text "x" } false {}
      ([] ++ []) ([] ++ [_]) _ _ _ :=
    .next (.start rfl) rfl rfl (.done _ _) rfl
  have hends := (ahead_fails_of_build hbuild hroute hstep hlater hparts (.shorthand rfl)).2 hreached
  obtain ⟨-, v, failure, hafter, -, hname, hindex, -⟩ := hends (by
    intro call hcall
    obtain rfl := List.mem_singleton.mp hcall
    exact PastCall.sparesViews_of_keepsViews fun _ _ hview => hview) rfl
  exact ⟨hbuild, hroute, _, _, _, _, hreached, rfl, v, failure, hafter, hname, hindex⟩

end Engine

end Switchyard
