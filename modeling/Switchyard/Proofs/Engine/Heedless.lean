import Switchyard.Listening
import Switchyard.Proofs.Activity.Likeness

/-!
# Runs before listeners

A call of a listener backfires if the listener fails and its failure cannot be put into words. As
long as no call backfires a run goes on as it goes before listeners that never fail, and it calls
the same units with the same configurations. The first call that backfires ends the run at once.

Which listeners there are, and what they are told, may make a difference to the world. All that is
asked of the likeness of worlds is that what units can see is the same.

Main statements: `run_alike`, `calls_iff`.
-/

namespace Switchyard

/-! ## §1 Calls that backfire -/

namespace Activity

variable {σ α : Type}

/-- The activity is over and this is its result. -/
def IsOver (a : Activity σ α) (x : α) : Prop := ∃ s, a = .done s x

theorem isOver_done {s : σ} {x : α} : (done s x).IsOver x := ⟨s, rfl⟩

end Activity

theorem exists_append_of_forall₂ {α β : Type} {R : α → β → Prop} {xs ys : List α} {zs : List β}
    (h : List.Forall₂ R (xs ++ ys) zs) :
    ∃ xs' ys', zs = xs' ++ ys' ∧ List.Forall₂ R xs xs' ∧ List.Forall₂ R ys ys' := by
  refine ⟨zs.take xs.length, zs.drop xs.length, (List.take_append_drop xs.length zs).symm, ?_, ?_⟩
  · exact (List.forall₂_take_append zs xs ys h.flip).flip
  · exact (List.forall₂_drop_append zs xs ys h.flip).flip

namespace Listeners

variable {α : Type} {listeners : Listeners} {number : Nat} {call : HookCall}
  {w : World} {e : Raised}

/-- The error that gets out of telling a call after those on a trail, if one does. -/
def backfire? (listeners : Listeners) (trail : List (Nat × HookCall)) (call : Nat × HookCall) :
    Option Raised :=
  match listeners.answer? trail call.2 with
  | some (.error e) => some e
  | some (.ok _) | none => none

theorem tell_snd :
    (listeners.tell number call w).2 = listeners.backfire? w.trail (number, call) := by
  unfold tell backfire?
  split <;> rename_i h <;> simp only [h]

@[simp] theorem tell_surroundings :
    (listeners.tell number call w).1.surroundings = w.surroundings := by
  unfold tell
  split <;> rfl

/-- Telling a call puts at most that call on the trail. -/
theorem tell_marks (listeners : Listeners) (number : Nat) (call : HookCall) (w : World) :
    Marks World.trail listeners.backfire? w (listeners.tell number call w).1
      (listeners.backfire? w.trail (number, call)) := by
  have hcalled : ∀ complaint, Marks World.trail listeners.backfire? w
      (w.called number call complaint) (listeners.backfire? w.trail (number, call)) := by
    intro complaint
    have hown : Marks World.trail listeners.backfire? w (w.called number call complaint)
        (firstMark listeners.backfire? w.trail [(number, call)]) := .of_added rfl
    rwa [firstMark, firstMark, Option.or_none] at hown
  cases hanswer : listeners.answer? w.trail call with
  | none =>
    -- Nobody listens.
    have hnone : listeners.backfire? w.trail (number, call) = none := by
      simp only [backfire?, hanswer]
    rw [hnone, tell, hanswer]
    exact .of_same rfl
  | some answer =>
    rw [tell, hanswer]
    cases answer <;> exact hcalled _

variable {calls : List HookCall} {escape : Raised → α} {next : World → Activity World α}

theorem telling_cons_of_none (h : listeners.backfire? w.trail (number, call) = none) :
    listeners.telling number (call :: calls) escape next w =
      listeners.telling number calls escape next (listeners.tell number call w).1 := by
  have htell : listeners.tell number call w = ((listeners.tell number call w).1, none) :=
    Prod.ext rfl (tell_snd.trans h)
  rw [telling, htell]

theorem telling_cons_of_some (h : listeners.backfire? w.trail (number, call) = some e) :
    listeners.telling number (call :: calls) escape next w =
      .done (listeners.tell number call w).1 (escape e) := by
  have htell : listeners.tell number call w = ((listeners.tell number call w).1, some e) :=
    Prod.ext rfl (tell_snd.trans h)
  rw [telling, htell]

/-- Telling calls only adds to the trail. -/
theorem telling_grows (hnext : ∀ u : World, u.trail <+: (next u).state.trail) :
    w.trail <+: (listeners.telling number calls escape next w).state.trail := by
  induction calls generalizing w with
  | nil => exact hnext w
  | cons call rest ih =>
    have htold := (listeners.tell_marks number call w).grows
    cases h : listeners.backfire? w.trail (number, call) with
    | none =>
      rw [telling_cons_of_none h]
      exact htold.trans ih
    | some e =>
      rw [telling_cons_of_some h]
      exact htold

end Listeners

/-! ## §2 Listeners that nobody heeds -/

/-- **A likeness of worlds that calls of listeners respect**: alike worlds have the same
surroundings, and they stay alike whatever the surroundings become, and whatever the one listeners
are told in the one world and the others in the other, unless it backfires. The other listeners are
such that nothing backfires. -/
structure Respects (R : World → World → Prop) (listeners listeners' : Listeners) : Prop where
  surroundings : ∀ {w w'}, R w w' → w.surroundings = w'.surroundings
  put : ∀ {w w'} (surroundings : Surroundings), R w w' →
    R { w with surroundings } { w' with surroundings }
  quiet : ∀ trail call, listeners'.backfire? trail call = none
  tell : ∀ {w w'} (number : Nat) (call : HookCall), R w w' →
    listeners.backfire? w.trail (number, call) = none →
    R (listeners.tell number call w).1 (listeners'.tell number call w').1

namespace Respects

variable {R : World → World → Prop} {listeners listeners' : Listeners} {w w' : World}

theorem store (hR : Respects R listeners listeners') (h : R w w') : w.store = w'.store :=
  congrArg Surroundings.store (hR.surroundings h)

theorem withStore (hR : Respects R listeners listeners') (σ : Store) (h : R w w') :
    R (w.withStore σ) (w'.withStore σ) := by
  unfold World.withStore
  rw [hR.surroundings h]
  exact hR.put _ h

end Respects

/-- Worlds that differ at most in what listeners were told and in the complaints about them. -/
def World.SameSurroundings (w w' : World) : Prop := w.surroundings = w'.surroundings

/-- Which listeners there are makes no difference to the surroundings. -/
theorem respects_none (listeners : Listeners) :
    Respects World.SameSurroundings listeners {} where
  surroundings h := h
  put surroundings _ := rfl
  quiet trail call := by
    obtain ⟨number, call⟩ := call
    cases call <;> rfl
  tell number call h _ := by
    unfold World.SameSurroundings
    rw [Listeners.tell_surroundings, Listeners.tell_surroundings]
    exact h

namespace Listeners

/-- Activities on the world that go alike until a call backfires. -/
abbrev Alike {α : Type} (listeners : Listeners) (R : World → World → Prop)
    (E : Raised → Activity World α → Prop) : World → Activity World α → Activity World α → Prop :=
  Activity.AlikeUntil World.trail listeners.backfire? R E

variable {α : Type} {R : World → World → Prop} {listeners listeners' : Listeners}
  (hR : Respects R listeners listeners') {table : PipelineTable} {pipeline : Pipeline}
  {invocation : Invocation} {number index : Nat} {step : Step} {steps : List Step} {scope : Scope}
  {w w' : World}

include hR

/-- **Telling calls**: until one of them backfires, what follows goes alike. -/
theorem telling_alike {E : Raised → Activity World α → Prop} {calls : List HookCall}
    {escape : Raised → α} {next next' : World → Activity World α} (h : R w w')
    (hescape : ∀ e s, E e (.done s (escape e)))
    (hnext : ∀ u u', R u u' → listeners.Alike R E u (next u) (next' u')) :
    listeners.Alike R E w (listeners.telling number calls escape next w)
      (listeners'.telling number calls escape next' w') := by
  induction calls generalizing w w' with
  | nil => exact hnext w w' h
  | cons call rest ih =>
    have htold := listeners.tell_marks number call w
    rw [telling_cons_of_none (hR.quiet w'.trail (number, call))]
    cases hback : listeners.backfire? w.trail (number, call) with
    | none =>
      rw [telling_cons_of_none hback]
      rw [hback] at htold
      exact (ih (hR.tell number call h hback)).of_earlier htold
    | some e =>
      rw [telling_cons_of_some hback]
      rw [hback] at htold
      exact .marked htold (hescape e _)

/-! ## §3 Runs -/

theorem endWithError_alike (h : R w w') (e : Raised) :
    listeners.Alike R (fun e a => a.IsOver (.escaped e)) w
      (listeners.endWithError number step index e w)
      (listeners'.endWithError number step index e w') := by
  rw [endWithError, endWithError]
  split
  · exact telling_alike hR h (fun _ _ => Activity.isOver_done) fun _ _ h => .done (.of_same rfl) h
  · exact .done (.of_same rfl) h

theorem endWithOutput_alike (h : R w w') (output : Value) :
    listeners.Alike R (fun e a => a.IsOver (.escaped e)) w
      (listeners.endWithOutput number step scope output w)
      (listeners'.endWithOutput number step scope output w') := by
  rw [endWithOutput, endWithOutput, hR.store h]
  split
  · refine (telling_alike (E := fun e a => a.IsOver (StepEnd.escaped e)) hR (hR.withStore _ h)
      ?_ ?_).of_earlier (.of_same rfl)
    · intro e s
      exact Activity.isOver_done
    · intro u u' huu'
      exact .done (.of_same rfl) huu'
  · exact .done (.of_same rfl) h

theorem endWith_alike (h : R w w') (answer : Except Raised Value) :
    listeners.Alike R (fun e a => a.IsOver (.escaped e)) w
      (listeners.endWith number step index scope w answer)
      (listeners'.endWith number step index scope w' answer) := by
  cases answer with
  | error e => exact endWithError_alike hR h e
  | ok output => exact endWithOutput_alike hR h output

theorem act_alike {E : Raised → Activity World (Except Raised Value) → Prop} (h : R w w')
    (call : Call) : listeners.Alike R E w (World.act call w) (World.act call w') := by
  have hcall : call w'.surroundings = call w.surroundings := by rw [hR.surroundings h]
  rw [World.act, World.act, hcall]
  refine .within_outside ?_ ?_ ?_ h
  · intro u surroundings
    rfl
  · intro u u' huu'
    exact hR.surroundings huu'
  · intro u u' surroundings huu'
    exact hR.put surroundings huu'

theorem work_alike (h : R w w') :
    listeners.Alike R (fun e a => a.IsOver (.escaped e)) w
      (listeners.work table invocation step index scope w)
      (listeners'.work table invocation step index scope w') := by
  rw [work, work, hR.store h]
  cases Binding.resolveRecord scope.context step.bindings w'.store with
  | error problem => exact endWithError_alike hR h problem.raised
  | ok resolved =>
    obtain ⟨config, σ⟩ := resolved
    refine Activity.AlikeUntil.of_earlier ?_ (.of_same (s := w.withStore σ) rfl)
    -- No entry comes on the trail while a unit is at work.
    refine (act_alike (E := fun _ _ => False) hR (hR.withStore σ h) _).bind ?_ ?_
    · intro u u' answer huu'
      exact endWith_alike hR huu' answer
    · intro _ _ _ _ _ hfalse
      exact hfalse.elim

theorem runStep_alike (h : R w w') :
    listeners.Alike R (fun e a => a.IsOver (.escaped e)) w
      (listeners.runStep table invocation step index scope w)
      (listeners'.runStep table invocation step index scope w') :=
  telling_alike hR h (fun _ _ => Activity.isOver_done) fun _ _ h => work_alike hR h

theorem runSteps_alike (h : R w w') :
    listeners.Alike R (fun e a => a.IsOver (.error e)) w
      (listeners.runSteps table invocation pipeline index steps scope w)
      (listeners'.runSteps table invocation pipeline index steps scope w') := by
  induction steps generalizing index scope w w' with
  | nil => exact .done (.of_same rfl) h
  | cons step rest ih =>
    rw [runSteps, runSteps, hR.surroundings h]
    split_ifs
    · exact .done (.of_same rfl) h
    · refine (runStep_alike hR h).bind ?_ ?_
      · intro u u' ended huu'
        cases ended with
        | recorded scope' => exact ih huu'
        | failed failure => exact .done (.of_same rfl) huu'
        | escaped e => exact .done (.of_same rfl) huu'
      · intro z e a b hmarks hover
        obtain ⟨s, rfl⟩ := hover
        exact .marked hmarks ⟨s, rfl⟩

/-- **Runs go alike** until a call backfires; then the error that got out is what they end with. -/
theorem run_alike (h : R w w') :
    listeners.Alike R (fun e a => a.IsOver (.error e)) w
      (listeners.run table pipeline invocation w)
      (listeners'.run table pipeline invocation w') := by
  rw [run, run, hR.store h]
  exact (runSteps_alike hR (hR.withStore _ h)).of_earlier (.of_same rfl)

omit hR

/-! ## §4 Calls of units -/

/-- **A unit is called** while steps are run, the first of which is at `index`: the run is resumed
in the given worlds, the units of some steps are called with their configurations and the steps end
well, and then the unit of the next step is called. -/
inductive CallsIn (listeners : Listeners) (table : PipelineTable) (invocation : Invocation)
    (off : Bool) :
    (index : Nat) → List Step → Scope → World → List World → (earlier : List (Step × Value)) →
      Step → Value → Prop
  /-- The run was not called off, the listeners have been told that the step starts, and
  its bindings resolve. -/
  | here {index : Nat} {step : Step} {rest : List Step} {scope : Scope} {w u : World}
      {config : Value} {σ : Store} :
      w.surroundings.isGiven invocation.signal = false →
      listeners.tell invocation.number (.audit (step.startCall index)) w = (u, none) →
      Binding.resolveRecord scope.context step.bindings u.store = .ok (config, σ) →
      CallsIn listeners table invocation off index (step :: rest) scope w [] [] step config
  /-- The step before ends well, with the configuration that its bindings resolve to. -/
  | later {index : Nat} {step step' : Step} {rest : List Step} {scope scope' : Scope} {w u : World}
      {before after : List World} {earlier : List (Step × Value)}
      {config config' : Value} {σ : Store} :
      w.surroundings.isGiven invocation.signal = false →
      Binding.resolveRecord scope.context step.bindings w.store = .ok (config, σ) →
      (listeners.runStep table invocation step index scope w).Ends off before u (.recorded scope') →
      CallsIn listeners table invocation off (index + 1) rest scope' u after earlier step' config' →
      CallsIn listeners table invocation off index (step :: rest) scope w (before ++ after)
        ((step, config) :: earlier) step' config'

/-- A unit is called in the run of a pipeline. -/
def Calls (listeners : Listeners) (table : PipelineTable) (pipeline : Pipeline)
    (invocation : Invocation) (off : Bool) (w : World) :
    List World → (earlier : List (Step × Value)) → Step → Value → Prop :=
  let (scope, store) :=
    Scope.start invocation.input invocation.claims invocation.correlationId w.store
  listeners.CallsIn table invocation off 0 pipeline.steps scope (w.withStore store)

/-- Running steps only adds to the trail. -/
theorem runSteps_grows :
    w.trail <+: (listeners.runSteps table invocation pipeline index steps scope w).state.trail := by
  have hsame : World.SameSurroundings w w := rfl
  exact (runSteps_alike (respects_none listeners) hsame).grows

variable {β : Type} {off : Bool} {ts ts' : List World} {earlier : List (Step × Value)}
  {config : Value} {C : Activity World (Except Raised Outcome) → Activity World β}
  (hC : Activity.Frame World.trail off C)

/-- What follows a step in a run. -/
def rest (listeners : Listeners) (table : PipelineTable) (invocation : Invocation)
    (pipeline : Pipeline) (index : Nat) (steps : List Step) (w : World) :
    StepEnd → Activity World (Except Raised Outcome)
  | .recorded scope => listeners.runSteps table invocation pipeline (index + 1) steps scope w
  | .failed failure => .done w (.ok (.failed failure []))
  | .escaped e => .done w (.error e)

theorem runSteps_of_calm {rest : List Step}
    (hcalm : w.surroundings.isGiven invocation.signal = false) :
    listeners.runSteps table invocation pipeline index (step :: rest) scope w =
      (listeners.runStep table invocation step index scope w).bind
        (listeners.rest table invocation pipeline index rest) := by
  rw [runSteps, hcalm]
  rfl

theorem frame_rest (hC : Activity.Frame World.trail off C) {rest : List Step} :
    Activity.Frame World.trail off fun a =>
      C (a.bind (listeners.rest table invocation pipeline index rest)) := by
  refine hC.bind ?_
  intro u ended
  cases ended with
  | recorded scope => exact runSteps_grows
  | failed failure | escaped e => exact List.prefix_rfl

include hR hC

/-- Until a call backfires, a unit that is called before the ones is called before the others. -/
theorem CallsIn.alike (h : R w w') (hts : List.Forall₂ R ts ts')
    (hquiet : (C (listeners.runSteps table invocation pipeline index steps scope w)).mark?
      World.trail listeners.backfire? w ts = none)
    (hcalls : listeners.CallsIn table invocation off index steps scope w ts earlier step config) :
    listeners'.CallsIn table invocation off index steps scope w' ts' earlier step config := by
  induction hcalls generalizing w' ts' with
  | @here index step rest scope w u config σ hcalm htell hresolve =>
    cases hts
    have hback : listeners.backfire? w.trail (invocation.number, .audit (step.startCall index)) =
        none := by rw [← tell_snd, htell]
    have hu := hR.tell invocation.number (.audit (step.startCall index)) h hback
    rw [htell] at hu
    rw [hR.surroundings h] at hcalm
    rw [hR.store hu] at hresolve
    exact .here hcalm (Prod.ext rfl (tell_snd.trans (hR.quiet _ _))) hresolve
  | @later index step step' rest scope scope' w u before after earlier config config' σ hcalm
      hresolve hstep _ ih =>
    obtain ⟨before', after', rfl, hbefore, hafter⟩ := exists_append_of_forall₂ hts
    rw [runSteps_of_calm hcalm] at hquiet
    obtain ⟨u', hstep', huu', hrest⟩ :=
      (runStep_alike hR h).ends (frame_rest hC) hbefore hstep hquiet
    rw [hR.surroundings h] at hcalm
    rw [hR.store h] at hresolve
    exact .later hcalm hresolve hstep' (ih huu' hafter hrest)

/-- Until a call backfires, a unit that is called before the others is called before the ones. -/
theorem CallsIn.alike_of_other (h : R w w') (hts : List.Forall₂ R ts ts')
    (hquiet : (C (listeners.runSteps table invocation pipeline index steps scope w)).mark?
      World.trail listeners.backfire? w ts = none)
    (hcalls : listeners'.CallsIn table invocation off index steps scope w' ts' earlier step
      config) :
    listeners.CallsIn table invocation off index steps scope w ts earlier step config := by
  induction hcalls generalizing w ts with
  | @here index step rest scope w' u' config σ hcalm htell hresolve =>
    cases hts
    rw [← hR.surroundings h] at hcalm
    cases hback : listeners.backfire? w.trail (invocation.number, .audit (step.startCall index))
      with
    | none =>
      have hu := hR.tell invocation.number (.audit (step.startCall index)) h hback
      rw [htell] at hu
      rw [← hR.store hu] at hresolve
      exact .here hcalm (Prod.ext rfl (tell_snd.trans hback)) hresolve
    | some e =>
      -- The run would be over with the call that the step starts.
      have htold := listeners.tell_marks invocation.number (.audit (step.startCall index)) w
      rw [hback] at htold
      rw [runSteps_of_calm hcalm, runStep, telling_cons_of_some hback] at hquiet
      exact absurd htold (hC.not_marked hquiet)
  | @later index step step' rest scope scope' w' u' before' after' earlier config config' σ hcalm
      hresolve hstep _ ih =>
    obtain ⟨before, after, rfl, hbefore, hafter⟩ := exists_append_of_forall₂ hts.flip
    rw [← hR.surroundings h] at hcalm
    rw [runSteps_of_calm hcalm] at hquiet
    obtain ⟨u, hstep', huu', hrest⟩ :=
      (runStep_alike hR h).ends_of_other (frame_rest hC) hbefore.flip hstep hquiet
    rw [← hR.store h] at hresolve
    exact .later hcalm hresolve hstep' (ih huu' hafter.flip hrest)

/-- **Until a call backfires**, a run calls the same units with the same configurations. -/
theorem calls_iff (h : R w w') (hts : List.Forall₂ R ts ts')
    (hquiet : (C (listeners.run table pipeline invocation w)).mark? World.trail
      listeners.backfire? w ts = none) :
    listeners.Calls table pipeline invocation off w ts earlier step config ↔
      listeners'.Calls table pipeline invocation off w' ts' earlier step config := by
  rcases hstart : Scope.start invocation.input invocation.claims invocation.correlationId w.store
    with ⟨scope, σ⟩
  have hstart' := hstart
  rw [hR.store h] at hstart'
  have hsteps : listeners.run table pipeline invocation w =
      listeners.runSteps table invocation pipeline 0 pipeline.steps scope (w.withStore σ) := by
    rw [run, hstart]
  rw [hsteps] at hquiet
  rw [Calls, Calls, hstart, hstart']
  have hbegun : R (w.withStore σ) (w'.withStore σ) := hR.withStore σ h
  -- The scope is begun without a word to the listeners.
  rw [Activity.mark?_of_earlier (z := w) (s := w.withStore σ) (.of_same rfl)
    (runSteps_grows.trans (hC.grows _))] at hquiet
  exact ⟨CallsIn.alike hR hC hbegun hts hquiet, CallsIn.alike_of_other hR hC hbegun hts hquiet⟩

end Listeners

end Switchyard
