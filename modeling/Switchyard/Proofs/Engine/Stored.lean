import Switchyard.Proofs.Engine.Stateless

/-!
# Runs of stored configuration

The literals of a pipeline may be kept in containers of the store that its units act on. Each step
is then read when it is due, and what was read is laid out afresh before the unit gets it. If the
units keep no state of their own, nothing that a run hands out leads back to these containers: so
every step reads as it was configured, and the run comes to what it would come to anywhere else.

Main statements: plain configuration is run as it stands (`runStored_of_plain`), every step of a run
reads as it was configured (`readingsOfRun_isPrefix`), and two runs of the same invocation come to
the same (`runStored_same`).
-/

namespace Switchyard

open Store (Pairing ChangeAlike)
open Surroundings (GoAlike StopAlike)

/-! ## §1 Runs -/

namespace Engine

/-- Runs steps whose literals are kept in the store: each step is read when it is due. -/
def runStoredSteps (engine : Engine) (invocation : Invocation) (pipeline : Pipeline) :
    (index : Nat) → List Step → Scope → World → Activity World (Except Raised Outcome)
  | _, [], scope, w => .done w ((answerOf pipeline scope).map (Outcome.success · scope.outputs))
  | index, step :: rest, scope, w =>
    if w.surroundings.isGiven invocation.signal then .done w (calledOff step index)
    else (engine.runStep invocation (step.read w.store) index scope w).bind fun w ended =>
      match ended with
      | .recorded scope => engine.runStoredSteps invocation pipeline (index + 1) rest scope w
      | .failed failure => .done w (.ok (.failed failure []))
      | .escaped e => .done w (.error e)

/-- **Runs a pipeline whose literals are kept in the store.** -/
def runStored (engine : Engine) (pipeline : Pipeline) (invocation : Invocation) (w : World) :
    Activity World (Except Raised Outcome) :=
  let (scope, store) :=
    Scope.start invocation.input invocation.claims invocation.correlationId w.store
  engine.runStoredSteps invocation pipeline 0 pipeline.steps scope (w.withStore store)

/-- The steps as they are read, one after another, as far as they are run alone. -/
def readings (engine : Engine) (invocation : Invocation) (off : Bool) :
    (index : Nat) → List Step → Scope → World → List Step
  | _, [], _, _ => []
  | index, step :: rest, scope, w =>
    if w.surroundings.isGiven invocation.signal then []
    else step.read w.store ::
      match (engine.runStep invocation (step.read w.store) index scope w).stop off with
      | (w, some (.recorded scope)) => engine.readings invocation off (index + 1) rest scope w
      | _ => []

/-- **The readings of a run**: its steps as it finds them. -/
def readingsOfRun (engine : Engine) (pipeline : Pipeline) (invocation : Invocation) (off : Bool)
    (w : World) : List Step :=
  let (scope, store) :=
    Scope.start invocation.input invocation.claims invocation.correlationId w.store
  engine.readings invocation off 0 pipeline.steps scope (w.withStore store)

variable {engine engine' : Engine} {pipeline pipeline' configured : Pipeline}
  {invocation invocation' : Invocation} {off : Bool} {number number' index : Nat} {step : Step}
  {steps stored stored' : List Step} {scope scope' : Scope} {w w' : World} {r : Nat → Nat → Prop}
  {base base' : Store}

theorem runStoredSteps_of_plain (h : ∀ step ∈ steps, step.IsPlain) :
    engine.runStoredSteps invocation pipeline index steps scope w =
      engine.runSteps invocation pipeline index steps scope w := by
  induction steps generalizing index scope w with
  | nil => rfl
  | cons step rest ih =>
    obtain ⟨hstep, hrest⟩ := List.forall_mem_cons.mp h
    rw [runStoredSteps, runSteps, Step.read_of_plain hstep]
    refine ite_congr rfl (fun _ => rfl) fun _ => ?_
    refine congrArg _ (funext₂ fun w ended => ?_)
    cases ended with
    | recorded scope => exact ih hrest
    | failed _ | escaped _ => rfl

/-- **Plain configuration** is run as it stands. -/
theorem runStored_of_plain (h : pipeline.IsPlain) :
    engine.runStored pipeline = engine.run pipeline := by
  funext invocation w
  exact runStoredSteps_of_plain h

end Engine

/-! ## §2 Ends that are the same -/

/-- **Outcomes that tell the same**: the same value and outputs, or the same failure. -/
inductive Outcome.Matches (r : Nat → Nat → Prop) : Outcome → Outcome → Prop
  | success {value value' : Value} {outputs outputs' : Outputs} :
      value.Matches r value' → outputs.Matches r outputs' →
      Matches r (.success value outputs) (.success value' outputs')
  | failed {failure failure' : Failure} {outputs outputs' : Outputs} : failure.Matches r failure' →
      failure.stepIndex = failure'.stepIndex → outputs.Matches r outputs' →
      Matches r (.failed failure outputs) (.failed failure' outputs')

/-- Ends of a step that are the same. -/
inductive StepEnd.Matches (r : Nat → Nat → Prop) : StepEnd → StepEnd → Prop
  | recorded {scope scope' : Scope} :
      scope.Matches r scope' → Matches r (.recorded scope) (.recorded scope')
  | failed {failure failure' : Failure} :
      failure.Matches r failure' → failure.stepIndex = failure'.stepIndex →
      Matches r (.failed failure) (.failed failure')
  | escaped {e e' : Raised} : e.Matches r e' → Matches r (.escaped e) (.escaped e')

/-- Replies that agree say the same, unless a fault is among them. -/
theorem Reply.Matches.of_agree {α : Type} {r : Nat → Nat → Prop} {p : α → α → Prop}
    {x y : Except Raised α} (h : Agree p x y) (hx : ∀ f, x ≠ .error (.fault f)) :
    Reply.Matches r p x y := by
  cases h with
  | ok hab => exact .ok hab
  | error e => exact .error (.other fun f heq => hx f (congrArg Except.error heq))

/-- What cannot be recorded is told in words. -/
theorem Scope.record_ne_fault {scope : Scope} {name : String} {value : Value}
    {σ : Store} (f : Fault) : scope.record name value σ ≠ .error (.fault f) := by
  unfold Scope.record Outputs.record
  split_ifs <;> exact nofun

namespace Engine

/-- What a failure cannot be told of is no fault any more. -/
theorem failureAt_ne_fault {step : Step} {index : Nat} {e : Raised} (f : Fault) :
    failureAt step index e ≠ .error (.fault f) := by
  have hraise : ∀ checked : Checked Failure, checked.raise ≠ .error (.fault f) := by
    intro checked
    cases checked <;> exact nofun
  unfold failureAt
  split
  · exact nofun
  · exact hraise _
  · exact hraise _

theorem answerOf_ne_fault {pipeline : Pipeline} {scope : Scope} (f : Fault) :
    answerOf pipeline scope ≠ .error (.fault f) := by
  intro h
  unfold answerOf at h
  split at h
  · rename_i name _
    unfold Outputs.get at h
    cases hfound : scope.outputs.find? name <;> rw [hfound] at h <;> cases h
  · cases hlast : scope.outputs.last <;> rw [hlast] at h <;> cases h

end Engine

/-- A failure that says nothing but words tells the same as itself. -/
theorem Failure.matches_self {r : Nat → Nat → Prop} {failure : Failure}
    (h : ∀ entry ∈ failure.details, entry.2.Within 0) :
    failure.Matches r failure where
  kind := rfl
  message := rfl
  stepName := rfl
  details :=
    List.forall₂_same.mpr fun entry hentry => ⟨rfl, Value.matches_self_of_plain (h entry hentry)⟩

/-- What hooks are told does not show. -/
def World.seen {α : Type} (x : World × α) : Surroundings × α := (x.1.surroundings, x.2)

section

variable {α β : Type} {signal signal' : Option Nat} {p : (Nat → Nat → Prop) → α → α → Prop}
  {q : (Nat → Nat → Prop) → β → β → Prop} {s t : Surroundings} {r : Nat → Nat → Prop} {off : Bool}
  {a b : Activity World α} {f g : World → α → Activity World β}

/-- What is over in two places that are alike. -/
theorem Surroundings.StopAlike.over {u u' : World} {x y : α} {r' : Nat → Nat → Prop}
    (h : GoAlike signal signal' s t r u.surroundings u'.surroundings r') (hxy : p r' x y) :
    StopAlike signal signal' p s t r (World.seen ((Activity.done u x).stop off))
      (World.seen ((Activity.done u' y).stop off)) :=
  ⟨r', h, .some hxy⟩

/-- **What goes on alike stops alike.** -/
theorem Surroundings.StopAlike.bind
    (h : StopAlike signal signal' p s t r (World.seen (a.stop off)) (World.seen (b.stop off)))
    (hnext : ∀ u u' x y r', GoAlike signal signal' s t r u.surroundings u'.surroundings r' →
      p r' x y →
      StopAlike signal signal' q u.surroundings u'.surroundings r' (World.seen ((f u x).stop off))
        (World.seen ((g u' y).stop off))) :
    StopAlike signal signal' q s t r (World.seen ((a.bind f).stop off))
      (World.seen ((b.bind g).stop off)) := by
  rw [Activity.stop_bind, Activity.stop_bind]
  generalize a.stop off = x at h
  generalize b.stop off = y at h
  obtain ⟨u, x⟩ := x
  obtain ⟨u', y⟩ := y
  obtain ⟨r', hgo, hxy⟩ := h
  replace hxy : Option.Rel (p r') x y := hxy
  cases hxy with
  | some hxy => exact hgo.stop (hnext u u' _ _ r' hgo hxy)
  | none => exact ⟨r', hgo, .none⟩

end

/-! ## §3 One step -/

namespace Engine

variable {engine engine' : Engine} {pipeline pipeline' configured : Pipeline}
  {invocation invocation' : Invocation} {off : Bool} {number number' index : Nat} {step : Step}
  {steps stored stored' : List Step} {scope scope' : Scope} {w w' : World} {r : Nat → Nat → Prop}
  {base base' : Store} {signal signal' : Option Nat}

theorem endWithError_same {s t : Surroundings} {r' : Nat → Nat → Prop} {e e' : Raised}
    (h : GoAlike signal signal' s t r w.surroundings w'.surroundings r') (he : e.Matches r' e') :
    StopAlike signal signal' StepEnd.Matches s t r
      (World.seen ((engine.endWithError number step index e w).stop off))
      (World.seen ((engine'.endWithError number' step index e' w').stop off)) := by
  have htold :=
    Reply.Matches.of_agree (r := r') (failureAt_agrees he step index index) failureAt_ne_fault
  unfold endWithError
  generalize failureAt step index e = x at htold
  generalize failureAt step index e' = y at htold
  cases htold with
  | error he => exact .over h (.escaped he)
  | ok htold =>
    obtain ⟨hmatches, hindex, hindex'⟩ := htold
    refine .over ?_ (.failed hmatches (hindex.trans hindex'.symm))
    rw [reportFailure_surroundings, reportFailure_surroundings]
    exact h

theorem endWithOutput_same {s t : Surroundings} {r' : Nat → Nat → Prop} {output output' : Value}
    (h : GoAlike signal signal' s t r w.surroundings w'.surroundings r')
    (hscope : scope.Matches r' scope') (houtput : output.Matches r' output') :
    StopAlike signal signal' StepEnd.Matches s t r
      (World.seen ((engine.endWithOutput number step scope output w).stop off))
      (World.seen ((engine'.endWithOutput number' step scope' output' w').stop off)) := by
  have hrecord :=
    Reply.Matches.of_agree (r := r') (Scope.record_agrees h.stores.pairing hscope step.name houtput)
      Scope.record_ne_fault
  unfold endWithOutput World.store
  generalize scope.record step.name output w.surroundings.store = x at hrecord
  generalize scope'.record step.name output' w'.surroundings.store = y at hrecord
  cases hrecord with
  | error he => exact .over h (.escaped he)
  | ok hcome =>
    obtain ⟨r'', hchanged, hscope'⟩ := hcome
    refine .over ?_ (.recorded hscope')
    rw [reportEnd_surroundings, reportEnd_surroundings]
    exact h.trans (.of_changed hchanged h.given)

/-- Replies that say the same end a step alike. -/
theorem endWith_same {s t : Surroundings} {r' : Nat → Nat → Prop}
    {answer answer' : Except Raised Value}
    (h : GoAlike signal signal' s t r w.surroundings w'.surroundings r')
    (hscope : scope.Matches r' scope')
    (hanswer : Reply.Matches r' (Value.Matches r') answer answer') :
    StopAlike signal signal' StepEnd.Matches s t r
      (World.seen ((engine.endWith number step index scope w answer).stop off))
      (World.seen ((engine'.endWith number' step index scope' w' answer').stop off)) := by
  cases hanswer with
  | ok houtput => exact endWithOutput_same h hscope houtput
  | error he => exact endWithError_same h he

/-- **One step of the same invocation** comes to the same, if its unit keeps no state. -/
theorem runStep_same (hplain : step.IsPlain) (hunit : engine.KeepsNoState step)
    (hwork : engine'.work step = engine.work step) (hpairing : Pairing w.store w'.store r)
    (hgiven : w.surroundings.isGiven invocation.signal = w'.surroundings.isGiven invocation'.signal)
    (hscope : scope.Matches r scope') :
    StopAlike invocation.signal invocation'.signal StepEnd.Matches w.surroundings w'.surroundings r
      (World.seen ((engine.runStep invocation step index scope w).stop off))
      (World.seen ((engine'.runStep invocation' step index scope' w').stop off)) := by
  have hresolve := hplain.resolve_agrees hpairing hscope.context
  generalize hx : Binding.resolveRecord scope.context step.bindings w.store = x at hresolve
  generalize hy : Binding.resolveRecord scope'.context step.bindings w'.store = y at hresolve
  cases hresolve with
  | error problem =>
    rw [runStep_unresolved hx, runStep_unresolved hy]
    have hannounced : GoAlike invocation.signal invocation'.signal w.surroundings w'.surroundings r
        (engine.announce invocation.number step index w).surroundings
        (engine'.announce invocation'.number step index w').surroundings r := by
      rw [announce_surroundings, announce_surroundings]
      exact .still hpairing hgiven
    exact endWithError_same hannounced (Raised.matches_of_evalProblem problem)
  | @ok resolved resolved' hresolved =>
    obtain ⟨config, σ⟩ := resolved
    obtain ⟨config', τ⟩ := resolved'
    obtain ⟨r', hgrown, hconfig⟩ := hresolved
    -- Both are called with the same data, in stores that have grown alike.
    have hcalled : GoAlike invocation.signal invocation'.signal w.surroundings w'.surroundings r
        { w.surroundings with store := σ } { w'.surroundings with store := τ } r' :=
      .of_changed (.of_grown hgrown) hgiven
    have hreplied := hunit.stops (s := { w.surroundings with store := σ })
      (t := { w'.surroundings with store := τ }) off
      hgrown.pairing hgiven hconfig (hscope.mono fun _ _ => hgrown.keeps)
    rw [runStep_resolved hx, runStep_resolved hy, hwork]
    refine .bind (p := fun r => Reply.Matches r (Value.Matches r)) ?_
      fun u u' answer answer' r'' hgo hanswer => ?_
    · rw [World.stop_act, World.stop_act, World.withStore_surroundings,
        World.withStore_surroundings, announce_surroundings, announce_surroundings]
      exact hcalled.stop hreplied
    · exact endWith_same hgo.here (hscope.mono fun _ _ => hgo.stores.keeps) hanswer

/-! ## §4 Whole runs -/

/-- **The configuration lies below all that is paired**, in both places, and is
as it was put there. -/
structure Linked (base base' : Store) (signal signal' : Option Nat) (s t : Surroundings)
    (r : Nat → Nat → Prop) : Prop where
  pairing : Pairing s.store t.store r
  given : s.isGiven signal = t.isGiven signal'
  first : base.Extends s.store
  second : base'.Extends t.store
  above : ∀ {a b}, r a b → base.cells.size ≤ a ∧ base'.cells.size ≤ b

/-- **Going on alike leaves the configuration as it is.** -/
theorem Linked.go {s s' t t' : Surroundings} {r' : Nat → Nat → Prop}
    (h : Linked base base' signal signal' s t r) (hgo : GoAlike signal signal' s t r s' t' r') :
    Linked base base' signal signal' s' t' r' where
  pairing := hgo.stores.pairing
  given := hgo.given
  first := hgo.stores.extends_first h.first fun hab => (h.above hab).1
  second := hgo.stores.flip.extends_first h.second fun hab => (h.above hab).2
  above hab := ⟨hgo.stores.above_first h.first (fun hab => (h.above hab).1) hab,
    hgo.stores.flip.above_first h.second (fun hab => (h.above hab).2) hab⟩

/-- **Steps that were put into a store**: as long as its containers are as they were, they read as
they were configured. -/
def StoredAs (base : Store) (stored steps : List Step) : Prop :=
  ∀ σ, base.Extends σ → stored.map (Step.read σ) = steps

theorem StoredAs.nil_iff {σ : Store} (h : StoredAs base stored []) (hσ : base.Extends σ) :
    stored = [] :=
  List.map_eq_nil_iff.mp (h σ hσ)

/-- The first of the steps reads as the first one that was configured. -/
theorem StoredAs.exists_cons {σ : Store} (h : StoredAs base stored (step :: steps))
    (hσ : base.Extends σ) :
    ∃ first rest, stored = first :: rest ∧ (∀ τ, base.Extends τ → first.read τ = step) ∧
      StoredAs base rest steps := by
  obtain ⟨first, rest, rfl, -, -⟩ := List.map_eq_cons_iff.mp (h σ hσ)
  refine ⟨first, rest, rfl, fun τ hτ => ?_, fun τ hτ => ?_⟩
  · exact (List.cons.inj (h τ hτ)).1
  · exact (List.cons.inj (h τ hτ)).2

/-- A run that is called off tells the name of the step that is due, which is
not kept in the store. -/
theorem calledOff_of_read {first : Step} {σ : Store} (h : first.read σ = step) :
    calledOff first index = .ok (.failed (.ofCancelled step index) []) := by
  subst h
  rfl

theorem calledOff_matches (step : Step) (index : Nat) :
    (Outcome.failed (.ofCancelled step index) []).Matches r
      (.failed (.ofCancelled step index) []) :=
  .failed (Failure.matches_self nofun) rfl .nil

/-- Steps of the same invocation that are kept in two places. -/
theorem runStoredSteps_same (hstored : StoredAs base stored steps)
    (hstored' : StoredAs base' stored' steps) (hplain : ∀ step ∈ steps, step.IsPlain)
    (hunits : ∀ step ∈ steps, engine.KeepsNoState step)
    (hwork : ∀ step, engine'.work step = engine.work step)
    (houtput : pipeline.output = pipeline'.output)
    (h : Linked base base' invocation.signal invocation'.signal w.surroundings w'.surroundings r)
    (hscope : scope.Matches r scope') :
    StopAlike invocation.signal invocation'.signal
      (fun r => Reply.Matches r (Outcome.Matches r)) w.surroundings w'.surroundings r
      (World.seen ((engine.runStoredSteps invocation pipeline index stored scope w).stop off))
      (World.seen
        ((engine'.runStoredSteps invocation' pipeline' index stored' scope' w').stop off)) := by
  induction steps generalizing stored stored' index scope scope' w w' r with
  | nil =>
    obtain rfl := hstored.nil_iff h.first
    obtain rfl := hstored'.nil_iff h.second
    refine .over (.still h.pairing h.given) ?_
    have hanswer :=
      Reply.Matches.of_agree (r := r) (answerOf_agrees hscope houtput) answerOf_ne_fault
    generalize answerOf pipeline scope = x at hanswer ⊢
    generalize answerOf pipeline' scope' = y at hanswer ⊢
    cases hanswer with
    | ok hvw => exact .ok (.success hvw hscope.outputs)
    | error he => exact .error he
  | cons step rest ih =>
    obtain ⟨hplainStep, hplainRest⟩ := List.forall_mem_cons.mp hplain
    obtain ⟨hunit, hunitsRest⟩ := List.forall_mem_cons.mp hunits
    obtain ⟨first, others, rfl, hread, hothers⟩ := hstored.exists_cons h.first
    obtain ⟨first', others', rfl, hread', hothers'⟩ := hstored'.exists_cons h.second
    have hfirst : first.read w.store = step := hread _ h.first
    have hfirst' : first'.read w'.store = step := hread' _ h.second
    rw [runStoredSteps, runStoredSteps, hfirst, hfirst', calledOff_of_read hfirst,
      calledOff_of_read hfirst', h.given]
    split_ifs with hgiven
    · exact .over (.still h.pairing h.given) (.ok (calledOff_matches step index))
    · refine .bind (runStep_same hplainStep hunit (hwork step) h.pairing h.given hscope)
        fun u u' ended ended' r' hgo hended => ?_
      cases hended with
      | recorded hscope' => exact ih hothers hothers' hplainRest hunitsRest (h.go hgo) hscope'
      | failed hmatches hindex => exact .over hgo.here (.ok (.failed hmatches hindex .nil))
      | escaped he => exact .over hgo.here (.error he)

/-- The steps read as they were configured, as far as they are run. -/
theorem readings_isPrefix (hstored : StoredAs base stored steps)
    (hplain : ∀ step ∈ steps, step.IsPlain) (hunits : ∀ step ∈ steps, engine.KeepsNoState step)
    (h : Linked base base invocation.signal invocation.signal w.surroundings w.surroundings r)
    (hscope : scope.Matches r scope) :
    engine.readings invocation off index stored scope w <+: steps := by
  induction steps generalizing stored index scope w r with
  | nil =>
    obtain rfl := hstored.nil_iff h.first
    exact List.nil_prefix
  | cons step rest ih =>
    obtain ⟨hplainStep, hplainRest⟩ := List.forall_mem_cons.mp hplain
    obtain ⟨hunit, hunitsRest⟩ := List.forall_mem_cons.mp hunits
    obtain ⟨first, others, rfl, hread, hothers⟩ := hstored.exists_cons h.first
    have hfirst : first.read w.store = step := hread _ h.first
    rw [readings, hfirst]
    split_ifs
    · exact List.nil_prefix
    · refine List.cons_prefix_cons.mpr ⟨rfl, ?_⟩
      -- Seen as two runs in one place, the step leaves the configuration as it is.
      have hstep : StopAlike invocation.signal invocation.signal StepEnd.Matches w.surroundings
          w.surroundings r (World.seen ((engine.runStep invocation step index scope w).stop off))
          (World.seen ((engine.runStep invocation step index scope w).stop off)) :=
        runStep_same hplainStep hunit rfl h.pairing h.given hscope
      generalize (engine.runStep invocation step index scope w).stop off = x at hstep
      obtain ⟨u, ended⟩ := x
      obtain ⟨r', hgo, hended⟩ := hstep
      split
      · rename_i hrecorded
        obtain ⟨rfl, rfl⟩ := Prod.mk.inj hrecorded
        cases hended with
        | some hended =>
          cases hended with
          | recorded hscope' => exact ih hothers hplainRest hunitsRest (h.go hgo) hscope'
      · exact List.nil_prefix

/-- **The same invocation**, up to where its data is kept. -/
structure SameInvocation (r : Nat → Nat → Prop) (invocation invocation' : Invocation) : Prop where
  input : invocation.input.Matches r invocation'.input
  claims : Option.Rel (Claims.Matches r) invocation.claims invocation'.claims
  correlationId : invocation.correlationId = invocation'.correlationId

/-- **Every step of a run reads as it was configured.** -/
theorem readingsOfRun_isPrefix (hstored : StoredAs base pipeline.steps steps)
    (hplain : ∀ step ∈ steps, step.IsPlain) (hunits : ∀ step ∈ steps, engine.KeepsNoState step)
    (h : Linked base base invocation.signal invocation.signal w.surroundings w.surroundings r)
    (hsame : SameInvocation r invocation invocation) :
    engine.readingsOfRun pipeline invocation off w <+: steps := by
  obtain ⟨r', hgrown, hscope⟩ :=
    Scope.start_matches invocation.correlationId h.pairing hsame.input hsame.claims
  exact readings_isPrefix hstored hplain hunits
    (h.go (.of_changed (.of_grown hgrown) h.given)) hscope

/-- **Runs of the same invocation come to the same**, wherever the configuration is kept. -/
theorem runStored_same (hstored : StoredAs base pipeline.steps steps)
    (hstored' : StoredAs base' pipeline'.steps steps) (hplain : ∀ step ∈ steps, step.IsPlain)
    (hunits : ∀ step ∈ steps, engine.KeepsNoState step)
    (hwork : ∀ step, engine'.work step = engine.work step)
    (houtput : pipeline.output = pipeline'.output)
    (h : Linked base base' invocation.signal invocation'.signal w.surroundings w'.surroundings r)
    (hsame : SameInvocation r invocation invocation') :
    StopAlike invocation.signal invocation'.signal
      (fun r => Reply.Matches r (Outcome.Matches r)) w.surroundings w'.surroundings r
      (World.seen ((engine.runStored pipeline invocation w).stop off))
      (World.seen ((engine'.runStored pipeline' invocation' w').stop off)) := by
  obtain ⟨r', hgrown, hscope⟩ :=
    Scope.start_matches invocation.correlationId h.pairing hsame.input hsame.claims
  have hstarted := GoAlike.of_changed (.of_grown hgrown) h.given
  have hlinked : Linked base base' invocation.signal invocation'.signal
      (w.withStore (Scope.start invocation.input invocation.claims invocation.correlationId
        w.store).2).surroundings
      (w'.withStore (Scope.start invocation'.input invocation'.claims invocation.correlationId
        w'.store).2).surroundings r' :=
    h.go hstarted
  unfold runStored
  rw [← hsame.correlationId]
  exact hstarted.stop (runStoredSteps_same hstored hstored' hplain hunits hwork houtput
    hlinked hscope)

end Engine

end Switchyard
