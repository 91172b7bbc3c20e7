import Switchyard.Proofs.Engine.CallingOff

/-!
# Runs that go alone

A run that goes alone is resumed in the state that it left, and what it waits for never comes. So
what it comes to is settled by the world that it starts in: where its steps lead, which units are
called with what, and how it ends.

Main statements: what a step comes to is its unit's reply and the end that this calls for
(`finish_runStep_resolved`), and what a run comes to that of its steps (`finish_runSteps_cons`).
-/

namespace Switchyard

/-! ## §1 Activities that go alone -/

namespace Activity

variable {σ τ α β : Type}

/-- What follows an activity goes on from where that ends. -/
theorem finish_bind (a : Activity σ α) (next : σ → α → Activity σ β) :
    (a.bind next).finish = (next a.finish.1 a.finish.2).finish := by
  induction a with
  | done s x => rfl
  | paused s resume ih => exact ih s
  | waiting s callOff ih => exact ih s

/-- An activity over a part of a larger state leaves everything else alone. -/
theorem finish_within {part : τ → σ} {replace : τ → σ → τ} (hpart : ∀ t s, part (replace t s) = s)
    (hreplace : ∀ t s s', replace (replace t s) s' = replace t s') (a : Activity σ α) (t : τ) :
    (a.within part replace t).finish = (replace t a.finish.1, a.finish.2) := by
  induction a generalizing t with
  | done s x => rfl
  | paused s resume ih =>
    simp only [Activity.within, finish, hpart, ih, hreplace]
  | waiting s callOff ih =>
    simp only [Activity.within, finish, hpart, ih, hreplace]

end Activity

theorem World.finish_act (call : Call) (w : World) :
    (World.act call w).finish =
      ({ w with surroundings := (call w.surroundings).finish.1 },
        (call w.surroundings).finish.2) := by
  unfold act
  rw [Activity.finish_within]
  · exact fun _ _ => rfl
  · exact fun _ _ _ => rfl

/-! ## §2 Steps that go alone -/

/-- The call of the unit of a step: the configuration, and the store in which it is handed over. -/
structure UnitCall where
  step : Step
  config : Value
  store : Store

namespace Engine

variable {engine : Engine} {pipeline : Pipeline} {invocation : Invocation} {step : Step}
  {index : Nat} {rest : List Step} {scope scope' : Scope} {w u : World} {config : Value} {σ : Store}

/-- **What a unit replies** that is called alone, and the surroundings that it leaves. -/
def reply (engine : Engine) (step : Step) (config : Value) (caller : Caller) (s : Surroundings) :
    Surroundings × Except Raised Value :=
  (engine.work step config caller s).finish

/-- The call that a step makes, if its bindings resolve. -/
def callOf? (step : Step) (scope : Scope) (w : World) : Option UnitCall :=
  match Binding.resolveRecord scope.context step.bindings w.store with
  | .ok (config, σ) => some ⟨step, config, σ⟩
  | .error _ => none

/-- A step whose bindings fail to resolve comes to that. -/
theorem finish_runStep_unresolved {problem : Expression.EvalProblem}
    (h : Binding.resolveRecord scope.context step.bindings w.store = .error problem) :
    (engine.runStep invocation step index scope w).finish =
      (engine.endWithError invocation.number step index problem.raised
        (engine.announce invocation.number step index w)).finish := by
  rw [runStep_unresolved h]

/-- **A step whose bindings resolve** comes to what its unit replies. -/
theorem finish_runStep_resolved
    (h : Binding.resolveRecord scope.context step.bindings w.store = .ok (config, σ)) :
    (engine.runStep invocation step index scope w).finish =
      (engine.endWith invocation.number step index scope
        { engine.announce invocation.number step index w with
          surroundings := (engine.reply step config (.invocation scope invocation.signal)
            { w.surroundings with store := σ }).1 }
        (engine.reply step config (.invocation scope invocation.signal) { w.surroundings with
          store := σ }).2).finish := by
  rw [runStep_resolved h, Activity.finish_bind, World.finish_act, World.withStore_surroundings,
    announce_surroundings]
  rfl

/-! ## §3 Runs that go alone -/

/-- Where steps lead that are run alone and all end well. -/
def afterSteps (engine : Engine) (invocation : Invocation) :
    (index : Nat) → List Step → Scope → World → Option (Scope × World)
  | _, [], scope, w => some (scope, w)
  | index, step :: rest, scope, w =>
    if w.surroundings.isGiven invocation.signal then none
    else match (engine.runStep invocation step index scope w).finish with
      | (w, .recorded scope) => engine.afterSteps invocation (index + 1) rest scope w
      | _ => none

/-- **The calls** that steps make that are run alone, up to the first step
that does not end well. -/
def callsOfSteps (engine : Engine) (invocation : Invocation) :
    (index : Nat) → List Step → Scope → World → List UnitCall
  | _, [], _, _ => []
  | index, step :: rest, scope, w =>
    if w.surroundings.isGiven invocation.signal then []
    else (callOf? step scope w).toList ++
      match (engine.runStep invocation step index scope w).finish with
      | (w, .recorded scope) => engine.callsOfSteps invocation (index + 1) rest scope w
      | _ => []

/-- The calls that a run makes alone. -/
def callsOfRun (engine : Engine) (pipeline : Pipeline) (invocation : Invocation) (w : World) :
    List UnitCall :=
  let (scope, store) :=
    Scope.start invocation.input invocation.claims invocation.correlationId w.store
  engine.callsOfSteps invocation 0 pipeline.steps scope (w.withStore store)

/-- Where a run alone comes past some steps, the first ones of its pipeline. -/
def afterFront (engine : Engine) (invocation : Invocation) (steps : List Step) (w : World) :
    Option (Scope × World) :=
  let (scope, store) :=
    Scope.start invocation.input invocation.claims invocation.correlationId w.store
  engine.afterSteps invocation 0 steps scope (w.withStore store)

theorem afterSteps_cons (hcalm : ¬ invocation.IsOff w) :
    engine.afterSteps invocation index (step :: rest) scope w =
      match (engine.runStep invocation step index scope w).finish with
      | (w, .recorded scope) => engine.afterSteps invocation (index + 1) rest scope w
      | _ => none := by
  have hgiven : ¬ w.surroundings.isGiven invocation.signal = true := hcalm
  rw [afterSteps, if_neg hgiven]

theorem callsOfSteps_cons (hcalm : ¬ invocation.IsOff w) :
    engine.callsOfSteps invocation index (step :: rest) scope w = (callOf? step scope w).toList ++
      match (engine.runStep invocation step index scope w).finish with
      | (w, .recorded scope) => engine.callsOfSteps invocation (index + 1) rest scope w
      | _ => [] := by
  have hgiven : ¬ w.surroundings.isGiven invocation.signal = true := hcalm
  rw [callsOfSteps, if_neg hgiven]

/-- Steps that are run alone come to what the first one comes to, and if that ends well, to
what the others do. -/
theorem finish_runSteps_cons (hcalm : ¬ invocation.IsOff w) :
    (engine.runSteps invocation pipeline index (step :: rest) scope w).finish =
      match (engine.runStep invocation step index scope w).finish with
      | (w, .recorded scope) =>
        (engine.runSteps invocation pipeline (index + 1) rest scope w).finish
      | (w, .failed failure) => (w, .ok (.failed failure []))
      | (w, .escaped e) => (w, .error e) := by
  have hgiven : ¬ w.surroundings.isGiven invocation.signal = true := hcalm
  rw [runSteps, if_neg hgiven, Activity.finish_bind]
  cases (engine.runStep invocation step index scope w).finish with
  | mk u ended => cases ended <;> rfl

end Engine

end Switchyard
