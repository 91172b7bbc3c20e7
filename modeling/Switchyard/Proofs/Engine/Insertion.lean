import Switchyard.Proofs.Engine.Beside
import Switchyard.Proofs.Engine.ByConfig

/-!
# Steps that nothing else depends on

A step is put into a pipeline at some place, under a name that no expression of the other steps asks
for. If the units of the other steps work by their configuration alone, then these steps are called
with the same data as before, they answer the same, and the run ends in the same way; only the steps
behind the place have moved on by one.

This needs that the unit of the new step leaves alone what the invocation shows and does not call it
off: units are handed the data itself and no copies of it.

Main statements: one step keeps two runs side by side (`runStep_beside`), and so do all steps with
one more among them (`insert_changes_nothing_else`).
-/

namespace Switchyard

open Store (Pairing)
open StepRecord (scope Shown)

/-! ## §1 Steps that work unnoticed -/

namespace Engine

/-- **A step succeeds**: the invocation has not been called off when it is due, its bindings
resolve, and its unit answers. `σ` is the store in which the unit is called, and `s` are the
surroundings that it leaves. -/
def Succeeds (engine : Engine) (invocation : Invocation) (step : Step) (scope : Scope)
    (w : World) (σ : Store) (s : Surroundings) : Prop :=
  ¬ invocation.IsOff w ∧ ∃ config output,
    Binding.resolveRecord scope.context step.bindings w.store = .ok (config, σ) ∧
    engine.reply step config (.invocation scope invocation.signal) { w.surroundings with
      store := σ } = (s, .ok output)

/-- **A step works unnoticed**: it succeeds, and its unit leaves alone what the invocation shows and
does not call it off. -/
def WorksUnnoticed (engine : Engine) (invocation : Invocation) (step : Step) (scope : Scope)
    (w : World) : Prop :=
  ∃ σ s, engine.Succeeds invocation step scope w σ s ∧ σ.SameFrom scope.context s.store ∧
    s.isGiven invocation.signal = false

/-! ## §2 One step -/

/-- **A step that has nothing to do with the one of the given name**: its unit is the same
for both engines and works by its configuration alone, it avoids the other step, and it
has a name of its own. -/
structure Unrelated (engine engine' : Engine) (signal : Option Nat) (name : String)
    (step : Step) : Prop where
  works : engine.WorksByConfig signal step
  units : engine'.work step = engine.work step
  avoids : step.Avoids name
  ne : step.name ≠ name
  free : step.name ∉ reservedNames

variable {engine engine' : Engine} {invocation : Invocation} {step : Step} {name : String}
  {steps i j : Nat} {done done' : List StepRecord} {w w' : World} {r : Nat → Nat → Prop}

/-- **Ends of a step that keep two runs side by side**: both record its output, or tell the same
failure, each with its own index, or the same escapes. -/
inductive EndsBeside (invocation : Invocation) (name : String) (steps : Nat) (step : Step)
    (done done' : List StepRecord) (i j : Nat) : World × StepEnd → World × StepEnd → Prop
  | recorded {u u' : World} {x y : StepRecord} {r : Nat → Nat → Prop} :
      x.name = step.name → y.name = step.name →
      ¬ invocation.IsOff u → ¬ invocation.IsOff u' →
      Beside name steps invocation.input (done ++ [x]) (done' ++ [y]) u.store u'.store r →
      EndsBeside invocation name steps step done done' i j
        (u, .recorded (scope invocation steps (done ++ [x])))
          (u', .recorded (scope invocation steps (done' ++ [y])))
  | failed {u u' : World} {failure failure' : Failure} {r : Nat → Nat → Prop} :
      Pairing u.store u'.store r → failure.Matches r failure' →
      failure.stepIndex = some (i : Int) → failure'.stepIndex = some (j : Int) →
      EndsBeside invocation name steps step done done' i j (u, .failed failure)
        (u', .failed failure')
  | escaped {u u' : World} (e : Raised) :
      EndsBeside invocation name steps step done done' i j (u, .escaped e) (u', .escaped e)

/-- Errors that say the same end a step side by side. -/
theorem endWithError_beside {e e' : Raised} {number number' : Nat}
    (hpairing : Pairing w.store w'.store r) (h : e.Matches r e') :
    EndsBeside invocation name steps step done done' i j
      (engine.endWithError number step i e w).finish
      (engine'.endWithError number' step j e' w').finish := by
  have hstore : ∀ {engine : Engine} {number index : Nat} {failure : Failure} {w : World},
      (engine.reportFailure number step index failure w).store = w.store :=
    congrArg Surroundings.store reportFailure_surroundings
  have htold := failureAt_agrees h step i j
  unfold endWithError
  generalize failureAt step i e = x at htold
  generalize failureAt step j e' = y at htold
  cases htold with
  | ok htells =>
    obtain ⟨hmatches, hi, hj⟩ := htells
    refine .failed ?_ hmatches hi hj
    rw [hstore, hstore]
    exact hpairing
  | error e => exact .escaped e

/-- An output that is new is recorded without fail, and the view of the steps is the only
container that changes. -/
theorem finish_endWithOutput_of_shown (engine : Engine) (invocation : Invocation) (output : Value)
    (hshown : Shown steps done w.store) (hnew : step.name ∉ done.map (·.name))
    (hreserved : step.name ∉ reservedNames) :
    ∃ u, (engine.endWithOutput invocation.number step
      (scope invocation steps done) output w).finish =
        (u, .recorded (scope invocation steps
          (done ++ [⟨step.name, output, w.store.cells.size⟩]))) ∧
      Shown steps (done ++ [⟨step.name, output, w.store.cells.size⟩]) u.store ∧
      (w.store.alloc (.view (Entries.ofFields [("output", output)]))).2.ExtendsBut steps u.store ∧
      (invocation.IsOff u ↔ invocation.IsOff w) := by
  have hrecord : (scope invocation steps done).record step.name output w.store = .ok (_, _) :=
    StepRecord.record_scope hshown hnew hreserved
  obtain ⟨u, hend⟩ : ∃ u, engine.endWithOutput invocation.number step
      (scope invocation steps done) output w =
      .done u (.recorded (scope invocation steps
        (done ++ [⟨step.name, output, w.store.cells.size⟩]))) := by
    rw [endWithOutput, hrecord]
    exact ⟨_, rfl⟩
  obtain ⟨-, hshown', hstore⟩ := endWithOutput_of_shown hshown hnew hreserved hend
  refine ⟨u, by rw [hend]; rfl, hshown', ?_, isOff_of_endWithOutput hend⟩
  rw [hstore]
  intro address cell hother hcell
  rw [Store.cell?_set_of_ne hother.symm]
  exact hcell

/-- **Replies that say the same** end a step side by side, if the runs are side by side when the
units have replied. -/
theorem endWith_beside {r' : Nat → Nat → Prop} {answer answer' : Except Raised Value}
    (hname : step.name ≠ name) (hreserved : step.name ∉ reservedNames)
    (hnew : step.name ∉ done.map (·.name)) (hnew' : step.name ∉ done'.map (·.name))
    (h : Beside name steps invocation.input done done' w.store w'.store r)
    (hpairing : Pairing w.store w'.store r') (hkeeps : ∀ a b, r' a b → r a b)
    (hanswers : Reply.Matches r' (Value.Matches r') answer answer') (hcalm : ¬ invocation.IsOff w)
    (hcalm' : ¬ invocation.IsOff w') :
    EndsBeside invocation name steps step done done' i j
      (engine.endWith invocation.number step i (scope invocation steps done) w answer).finish
      (engine'.endWith invocation.number step j
        (scope invocation steps done') w' answer').finish := by
  cases hanswers with
  | error herror => exact endWithError_beside hpairing herror
  | @ok output output' hsame =>
    obtain ⟨u, hend, hshown, hkept, hoff⟩ :=
      finish_endWithOutput_of_shown engine invocation output h.shown hnew hreserved
    obtain ⟨u', hend', hshown', hkept', hoff'⟩ :=
      finish_endWithOutput_of_shown engine' invocation output' h.shown' hnew' hreserved
    rw [endWith, endWith, hend, hend']
    have hrecorded := h.record hname (hsame.mono hkeeps) hshown hshown' hkept hkept'
    exact .recorded rfl rfl (mt hoff.mp hcalm) (mt hoff'.mp hcalm') hrecorded

/-- **One step keeps two runs side by side** if it has nothing to do with the
step of the given name. -/
theorem runStep_beside (hstep : engine.Unrelated engine' invocation.signal name step)
    (hnew : step.name ∉ done.map (·.name)) (hnew' : step.name ∉ done'.map (·.name))
    (h : Beside name steps invocation.input done done' w.store w'.store r)
    (hcalm : ¬ invocation.IsOff w) (hcalm' : ¬ invocation.IsOff w') :
    EndsBeside invocation name steps step done done' i j
      (engine.runStep invocation step i (scope invocation steps done) w).finish
      (engine'.runStep invocation step j (scope invocation steps done') w').finish := by
  have hreply : engine'.reply step = engine.reply step := by
    unfold reply
    rw [hstep.units]
  have hresolve := h.resolve_agrees hstep.avoids
  generalize hx : Binding.resolveRecord
    (scope invocation steps done).context step.bindings w.store = x at hresolve
  generalize hy : Binding.resolveRecord
    (scope invocation steps done').context step.bindings w'.store = y at hresolve
  cases hresolve with
  | error problem =>
    rw [finish_runStep_unresolved hx, finish_runStep_unresolved hy]
    have hpairing : Pairing (engine.announce invocation.number step i w).store
        (engine'.announce invocation.number step j w').store r := by
      rw [announce_store, announce_store]
      exact h.pairing
    exact endWithError_beside hpairing (Raised.matches_of_evalProblem problem)
  | @ok resolved resolved' hresolved =>
    obtain ⟨config, σ⟩ := resolved
    obtain ⟨config', τ⟩ := resolved'
    obtain ⟨r', hgrown, hconfig⟩ := hresolved
    rw [finish_runStep_resolved hx, finish_runStep_resolved hy, hreply]
    -- The units are called with the same data, so they reply the same; and the runs are side
    -- by side when they have.
    obtain ⟨r'', hpairing, hfresh, hanswers⟩ :=
      hstep.works.replies (s := { w.surroundings with store := σ })
        (t := { w'.surroundings with store := τ })
          (.invocation (scope invocation steps done) invocation.signal)
        (.invocation (scope invocation steps done') invocation.signal) hgrown.pairing hconfig
    have hreplied := (h.of_grown hgrown).of_replied
      (hstep.works.spares config _ { w.surroundings with store := σ })
      (hstep.works.spares config' _ { w'.surroundings with store := τ }) hpairing hfresh
    have hstill :=
      hstep.works.calm config (scope invocation steps done) { w.surroundings with store := σ }
        (Invocation.not_isOff_iff.mp hcalm)
    have hstill' :=
      hstep.works.calm config' (scope invocation steps done') { w'.surroundings with store := τ }
        (Invocation.not_isOff_iff.mp hcalm')
    generalize engine.reply step config _ { w.surroundings with store := σ } = reply
      at hpairing hreplied hanswers hstill ⊢
    generalize engine.reply step config' _ { w'.surroundings with store := τ } = reply'
      at hpairing hreplied hanswers hstill' ⊢
    obtain ⟨s, answer⟩ := reply
    obtain ⟨s', answer'⟩ := reply'
    exact endWith_beside hstep.ne hstep.free hnew hnew' hreplied hpairing (fun _ _ => .inl) hanswers
      (Invocation.not_isOff_iff.mpr hstill) (Invocation.not_isOff_iff.mpr hstill')

/-! ## §3 All steps -/

end Engine

/-- **Calls that are the same**: of one step, with the same data. -/
structure UnitCall.Same (call call' : UnitCall) : Prop where
  step : call.step = call'.step
  config : Store.Same call.store call.config call'.store call'.config

namespace Engine

/-- **Ends of two runs that are alike** up to a step of the given name, which only the second one
has, at the given place: both succeed, with the same outputs but for those of that name, and with
the same value where `valued` says so; or they tell the same failure, where the index of a step from
the place on has moved by one; or the same escapes. -/
inductive EndsAlike (name : String) (place : Nat) (valued : Prop) :
    World × Except Raised Outcome → World × Except Raised Outcome → Prop
  | success {u u' : World} {value value' : Value} {outputs outputs' : Outputs}
      {r : Nat → Nat → Prop} : Pairing u.store u'.store r →
      List.Forall₂ (fun o o' => o.1 = o'.1 ∧ o.2.Matches r o'.2) outputs
        (outputs'.filter (·.1 != name)) →
      (valued → value.Matches r value') →
      EndsAlike name place valued (u, .ok (.success value outputs))
        (u', .ok (.success value' outputs'))
  | failed {u u' : World} {failure failure' : Failure} {index : Nat} {r : Nat → Nat → Prop} :
      Pairing u.store u'.store r → failure.Matches r failure' →
      failure.stepIndex = some (index : Int) →
      failure'.stepIndex = some ((if index < place then index else index + 1 : Nat) : Int) →
      EndsAlike name place valued (u, .ok (.failed failure [])) (u', .ok (.failed failure' []))
  | escaped {u u' : World} (e : Raised) : EndsAlike name place valued (u, .error e) (u', .error e)

/-- **Runs that are alike**: they call the units of all steps but those of the given name with the
same data, and end alike. -/
structure RunsAlike (name : String) (place : Nat) (valued : Prop) (calls calls' : List UnitCall)
    (ended ended' : World × Except Raised Outcome) : Prop where
  calls : List.Forall₂ UnitCall.Same calls (calls'.filter (·.step.name != name))
  ends : EndsAlike name place valued ended ended'

variable {engine engine' : Engine} {pipeline pipeline' : Pipeline} {invocation : Invocation}
  {step new : Step} {name : String} {steps i j place : Nat} {done done' : List StepRecord}
  {front back rest rest' : List Step} {w w' : World} {r : Nat → Nat → Prop} {valued : Prop}
  {known : String → Bool}

/-- **Pipelines that can be compared**: both have steps of different names and the same designated
output, which is that of a step of both, and the first one has no step of the given name. -/
structure Comparable (name : String) (pipeline pipeline' : Pipeline) : Prop where
  distinct : pipeline.stepNames.Nodup
  distinct' : pipeline'.stepNames.Nodup
  output : pipeline'.output = pipeline.output
  designated : ∀ key, pipeline.output = some key → key ∈ pipeline.stepNames ∧
    key ∈ pipeline'.stepNames
  lacks : name ∉ pipeline.stepNames

/-- A step that is due has no name of a step before it. -/
theorem name_notMem_of_due {names : List String} (hdistinct : pipeline.stepNames.Nodup)
    (hsteps : names ++ (step :: rest).map (·.name) = pipeline.stepNames) : step.name ∉ names :=
  fun hmem => List.disjoint_of_nodup_append (hsteps ▸ hdistinct) hmem (List.mem_cons_self ..)

/-- **The calls of a step** in both runs are the same, or both make none. -/
theorem calls_beside (h : Beside name steps invocation.input done done' w.store w'.store r)
    (havoids : step.Avoids name) (hname : step.name ≠ name) :
    List.Forall₂ UnitCall.Same (callOf? step (scope invocation steps done) w).toList
      ((callOf? step (scope invocation steps done') w').toList.filter (·.step.name != name)) := by
  have hresolve := h.resolve_agrees havoids
  unfold callOf?
  generalize Binding.resolveRecord (scope invocation steps done).context step.bindings w.store =
    x at hresolve
  generalize Binding.resolveRecord (scope invocation steps done').context step.bindings w'.store =
    y at hresolve
  cases hresolve with
  | error problem => exact .nil
  | ok hresolved =>
    obtain ⟨r', hgrown, hconfig⟩ := hresolved
    rw [Option.toList_some, Option.toList_some, List.filter_cons_of_pos (by simpa using hname)]
    exact .cons ⟨rfl, r', hgrown.pairing, hconfig⟩ .nil

/-- **One step more**: its calls are the same, and it keeps the runs side by side. So they are alike
if they are from there. -/
theorem runsAlike_cons (hstep : engine.Unrelated engine' invocation.signal name step)
    (hj : j = if i < place then i else i + 1) (hnew : step.name ∉ done.map (·.name))
    (hnew' : step.name ∉ done'.map (·.name))
    (h : Beside name steps invocation.input done done' w.store w'.store r)
    (hcalm : ¬ invocation.IsOff w) (hcalm' : ¬ invocation.IsOff w')
    (hrest : ∀ {x y : StepRecord} {u u' : World} {r : Nat → Nat → Prop}, x.name = step.name →
      y.name = step.name →
      (engine'.runStep invocation step j (scope invocation steps done') w').finish =
        (u', .recorded (scope invocation steps (done' ++ [y]))) →
      ¬ invocation.IsOff u → ¬ invocation.IsOff u' →
      Beside name steps invocation.input (done ++ [x]) (done' ++ [y]) u.store u'.store r →
      RunsAlike name place valued
        (engine.callsOfSteps invocation (i + 1) rest (scope invocation steps (done ++ [x])) u)
        (engine'.callsOfSteps invocation (j + 1) rest' (scope invocation steps (done' ++ [y])) u')
        (engine.runSteps invocation pipeline (i + 1) rest
          (scope invocation steps (done ++ [x])) u).finish
        (engine'.runSteps invocation pipeline' (j + 1) rest'
          (scope invocation steps (done' ++ [y])) u').finish) :
    RunsAlike name place valued
      (engine.callsOfSteps invocation i (step :: rest) (scope invocation steps done) w)
      (engine'.callsOfSteps invocation j (step :: rest') (scope invocation steps done') w')
      (engine.runSteps invocation pipeline i (step :: rest) (scope invocation steps done) w).finish
      (engine'.runSteps invocation pipeline' j (step :: rest')
        (scope invocation steps done') w').finish := by
  have hends : EndsBeside invocation name steps step done done' i j _ _ :=
    runStep_beside hstep hnew hnew' h hcalm hcalm'
  have hfirst := calls_beside h hstep.avoids hstep.ne
  rw [callsOfSteps_cons hcalm, callsOfSteps_cons hcalm', finish_runSteps_cons hcalm,
    finish_runSteps_cons hcalm']
  generalize (engine.runStep invocation step i (scope invocation steps done) w).finish =
    ended at hends
  generalize hended' : (engine'.runStep invocation step j
    (scope invocation steps done') w').finish = ended' at hends hrest
  cases hends with
  | recorded hx hy hoff hoff' hbeside =>
    obtain ⟨hcalls, hends⟩ := hrest hx hy rfl hoff hoff' hbeside
    refine ⟨?_, hends⟩
    rw [List.filter_append]
    exact List.rel_append hfirst hcalls
  | failed hpairing hmatches hi hfailedAt =>
    refine ⟨by simpa using hfirst, .failed hpairing hmatches hi ?_⟩
    rw [hfailedAt, hj]
  | escaped e => exact ⟨by simpa using hfirst, .escaped e⟩

/-- **Runs past their last step** are alike. -/
theorem runsAlike_nil (hcomparable : Comparable name pipeline pipeline')
    (h : Beside name steps invocation.input done done' w.store w'.store r)
    (hsteps : done.map (·.name) = pipeline.stepNames)
    (hsteps' : done'.map (·.name) = pipeline'.stepNames)
    (hlast : valued → pipeline.output = none → ∃ y, done'.getLast? = some y ∧ y.name ≠ name) :
    RunsAlike name place valued
      (engine.callsOfSteps invocation i [] (scope invocation steps done) w)
      (engine'.callsOfSteps invocation j [] (scope invocation steps done') w')
      (engine.runSteps invocation pipeline i [] (scope invocation steps done) w).finish
      (engine'.runSteps invocation pipeline' j [] (scope invocation steps done') w').finish := by
  have hanswer : answerOf pipeline' (scope invocation steps done') =
      answerOf pipeline (scope invocation steps done') := by
    rw [answerOf, answerOf, hcomparable.output]
  obtain ⟨value, hvalue⟩ : ∃ value, answerOf pipeline (scope invocation steps done) =
      .ok value := by
    refine answerOf_ok fun key hkey => ?_
    rw [scope, StepRecord.names_outputs, hsteps]
    exact (hcomparable.designated key hkey).1
  obtain ⟨value', hvalue'⟩ : ∃ value', answerOf pipeline (scope invocation steps done') =
      .ok value' := by
    refine answerOf_ok fun key hkey => ?_
    rw [scope, StepRecord.names_outputs, hsteps']
    exact (hcomparable.designated key hkey).2
  refine ⟨.nil, ?_⟩
  rw [runSteps, runSteps, hanswer, hvalue, hvalue']
  refine .success h.pairing h.outputs_correspond fun hvalued => ?_
  have hsame : Agree _ (answerOf pipeline (scope invocation steps done))
      (answerOf pipeline (scope invocation steps done')) :=
    h.answerOf_agrees (fun key hkey heq =>
      hcomparable.lacks (heq ▸ (hcomparable.designated key hkey).1)) (hlast hvalued)
  rw [hvalue, hvalue'] at hsame
  cases hsame with
  | ok hsame => exact hsame

/-- **The steps behind the place** keep runs alike. -/
theorem runsAlike_of_unrelated (hcomparable : Comparable name pipeline pipeline')
    (hunrelated : ∀ step ∈ rest, engine.Unrelated engine' invocation.signal name step)
    (hplace : place ≤ i) (hsteps : done.map (·.name) ++ rest.map (·.name) = pipeline.stepNames)
    (hsteps' : done'.map (·.name) ++ rest.map (·.name) = pipeline'.stepNames)
    (hlast : valued → pipeline.output = none → rest = [] → ∃ y, done'.getLast? = some y ∧
      y.name ≠ name)
    (h : Beside name steps invocation.input done done' w.store w'.store r)
    (hcalm : ¬ invocation.IsOff w) (hcalm' : ¬ invocation.IsOff w') :
    RunsAlike name place valued
      (engine.callsOfSteps invocation i rest (scope invocation steps done) w)
      (engine'.callsOfSteps invocation (i + 1) rest (scope invocation steps done') w')
      (engine.runSteps invocation pipeline i rest (scope invocation steps done) w).finish
      (engine'.runSteps invocation pipeline' (i + 1) rest
        (scope invocation steps done') w').finish := by
  induction rest generalizing i done done' w w' r with
  | nil =>
    rw [List.map_nil, List.append_nil] at hsteps hsteps'
    exact runsAlike_nil hcomparable h hsteps hsteps' fun hvalued hnone => hlast hvalued hnone rfl
  | cons step rest ih =>
    obtain ⟨hstep, hrest⟩ := List.forall_mem_cons.mp hunrelated
    refine runsAlike_cons hstep (by rw [if_neg (by omega)])
      (name_notMem_of_due hcomparable.distinct hsteps)
      (name_notMem_of_due hcomparable.distinct' hsteps') h hcalm hcalm' ?_
    intro x y u u' r' hx hy _ hoff hoff' hbeside
    refine ih hrest (by omega) ?_ ?_ ?_ hbeside hoff hoff'
    · simpa [hx] using hsteps
    · simpa [hy] using hsteps'
    · -- The step that has just run is not the one that only the second run has.
      exact fun _ _ _ => ⟨y, List.getLast?_concat, hy ▸ hstep.ne⟩

/-- **At the place** the second run runs its step and is beside the first one again, if the
step works unnoticed. -/
theorem runsAlike_insert (hcomparable : Comparable new.name pipeline pipeline')
    (hunrelated : ∀ step ∈ back, engine.Unrelated engine' invocation.signal new.name step)
    (hsteps : done.map (·.name) ++ back.map (·.name) = pipeline.stepNames)
    (hsteps' : done'.map (·.name) ++ (new :: back).map (·.name) = pipeline'.stepNames)
    (hvalued : valued → pipeline.output ≠ none ∨ back ≠ []) (hreserved : new.name ∉ reservedNames)
    (h : Beside new.name steps invocation.input done done' w.store w'.store r)
    (hcalm : ¬ invocation.IsOff w)
    (hunnoticed : engine'.WorksUnnoticed invocation new (scope invocation steps done') w') :
    RunsAlike new.name i valued
      (engine.callsOfSteps invocation i back (scope invocation steps done) w)
      (engine'.callsOfSteps invocation i (new :: back) (scope invocation steps done') w')
      (engine.runSteps invocation pipeline i back (scope invocation steps done) w).finish
      (engine'.runSteps invocation pipeline' i (new :: back)
        (scope invocation steps done') w').finish := by
  obtain ⟨τ, s, ⟨hcalm', config, output, hresolve, hreply⟩, hspares, hstill⟩ := hunnoticed
  have hnew : new.name ∉ done'.map (·.name) := name_notMem_of_due hcomparable.distinct' hsteps'
  -- The store has grown, the unit has left alone what the scope shows, and its output is recorded
  -- in the second run only.
  obtain ⟨r', hreplied⟩ := h.of_alone (Binding.resolve_extends hresolve) hspares
  obtain ⟨u, hend, hshown, hkept, hoff⟩ := finish_endWithOutput_of_shown engine' invocation output
    (w := { engine'.announce invocation.number new i w' with surroundings := s }) hreplied.shown'
      hnew hreserved
  have hfinish : (engine'.runStep invocation new i (scope invocation steps done') w').finish =
      (u, .recorded (scope invocation steps
        (done' ++ [⟨new.name, output, s.store.cells.size⟩]))) := by
    rw [finish_runStep_resolved hresolve, hreply]
    exact hend
  have hcall : callOf? new (scope invocation steps done') w' = some ⟨new, config, τ⟩ := by
    rw [callOf?, hresolve]
  have hinserted := hreplied.insert hshown ((Store.extends_alloc _ _).extendsBut_trans hkept) rfl
  have hrest := runsAlike_of_unrelated (i := i) hcomparable hunrelated (Nat.le_refl i) hsteps
    (by simpa using hsteps') (fun hv hnone hnil => (hvalued hv).elim (absurd hnone) (absurd hnil))
      hinserted hcalm
    (mt hoff.mp (Invocation.not_isOff_iff.mpr hstill))
  rw [callsOfSteps_cons hcalm', finish_runSteps_cons hcalm', hfinish, hcall]
  refine ⟨?_, hrest.ends⟩
  rw [List.filter_append, Option.toList_some, List.filter_cons_of_neg (by simp), List.filter_nil,
    List.nil_append]
  exact hrest.calls

/-- **All steps**: those before the place keep the runs alike, and so do those from the place on. -/
theorem runsAlike_of_insert (hcomparable : Comparable new.name pipeline pipeline')
    (hunrelated : ∀ step ∈ front ++ back, engine.Unrelated engine' invocation.signal new.name step)
    (hsteps : done.map (·.name) ++ (front ++ back).map (·.name) = pipeline.stepNames)
    (hsteps' : done'.map (·.name) ++ (front ++ new :: back).map (·.name) = pipeline'.stepNames)
    (hvalued : valued → pipeline.output ≠ none ∨ back ≠ []) (hreserved : new.name ∉ reservedNames)
    (h : Beside new.name steps invocation.input done done' w.store w'.store r)
    (hcalm : ¬ invocation.IsOff w) (hcalm' : ¬ invocation.IsOff w')
    (hnew : ∀ sc u, engine'.afterSteps invocation i front (scope invocation steps done') w' =
      some (sc, u) →
      engine'.WorksUnnoticed invocation new sc u) :
    RunsAlike new.name (i + front.length) valued
      (engine.callsOfSteps invocation i (front ++ back) (scope invocation steps done) w)
      (engine'.callsOfSteps invocation i (front ++ new :: back) (scope invocation steps done') w')
      (engine.runSteps invocation pipeline i (front ++ back) (scope invocation steps done) w).finish
      (engine'.runSteps invocation pipeline' i (front ++ new :: back)
        (scope invocation steps done') w').finish := by
  induction front generalizing i done done' w w' r with
  | nil =>
    exact runsAlike_insert hcomparable hunrelated hsteps hsteps' hvalued hreserved h hcalm
      (hnew _ _ rfl)
  | cons step front ih =>
    obtain ⟨hstep, hrest⟩ := List.forall_mem_cons.mp hunrelated
    refine runsAlike_cons hstep (by rw [if_pos (by simp)])
      (name_notMem_of_due hcomparable.distinct hsteps)
      (name_notMem_of_due hcomparable.distinct' hsteps') h hcalm hcalm' ?_
    intro x y u u' r' hx hy hfinish hoff hoff' hbeside
    have hplace : i + (step :: front).length = i + 1 + front.length := by
      rw [List.length_cons]
      omega
    rw [hplace]
    refine ih hrest ?_ ?_ hbeside hoff hoff' fun sc v hafter => hnew sc v ?_
    · simpa [hx] using hsteps
    · simpa [hy] using hsteps'
    · rw [afterSteps_cons hcalm', hfinish]
      exact hafter

/-- **Runs that have been called off** before a step that both have next are alike. -/
theorem runsAlike_of_isOff (hoff : invocation.IsOff w) (hplace : i < place) {scope : Scope} :
    RunsAlike name place valued (engine.callsOfSteps invocation i (step :: rest) scope w)
      (engine'.callsOfSteps invocation i (step :: rest') scope w)
      (engine.runSteps invocation pipeline i (step :: rest) scope w).finish
      (engine'.runSteps invocation pipeline' i (step :: rest') scope w).finish := by
  have hgiven : w.surroundings.isGiven invocation.signal = true := hoff
  rw [callsOfSteps, callsOfSteps, runSteps, runSteps, if_pos hgiven, if_pos hgiven, if_pos hgiven,
    if_pos hgiven]
  refine ⟨.nil, .failed .none ⟨rfl, rfl, rfl, .nil⟩ rfl ?_⟩
  rw [if_pos hplace]

/-! ## §4 Whole runs -/

/-- A pipeline in order can be compared with itself with one more step in it, whose name is new. -/
theorem comparable_of_new (horder : pipeline.InOrder reservedNames known)
    (hsteps : pipeline.steps = front ++ back) (hname : new.name ∉ pipeline.stepNames) :
    Comparable new.name pipeline { pipeline with steps := front ++ new :: back } := by
  have hnames : Pipeline.stepNames { pipeline with steps := front ++ new :: back } =
      front.map (·.name) ++ new.name :: back.map (·.name) := by
    rw [Pipeline.stepNames, List.map_append, List.map_cons]
  have hnames' : pipeline.stepNames = front.map (·.name) ++ back.map (·.name) := by
    rw [Pipeline.stepNames, hsteps, List.map_append]
  refine ⟨horder.distinct, ?_, rfl, fun key hkey => ⟨horder.output key hkey, ?_⟩, hname⟩
  · rw [hnames, List.nodup_middle, List.nodup_cons, ← hnames']
    exact ⟨hname, horder.distinct⟩
  · have hmem := horder.output key hkey
    rw [hnames', List.mem_append] at hmem
    rw [hnames, List.mem_append, List.mem_cons]
    exact hmem.imp_right .inr

/-- **Inserting an unrelated step changes nothing else.** Let a pipeline be checked, and let a step
be put into it whose name is new and not reserved. Let its other units be the same in both engines
and work by their configuration alone, and let its expressions not name the new step, nor be the
bare path of the steps. If the new step works unnoticed when the run comes to it, then all other
steps are called with the same data in both runs, and the runs end alike: with the same outputs of
all other steps, and the same value unless it is the output of the new step; or with the same
failure of the same step, whose index has moved by one if it is behind the new step. -/
theorem insert_changes_nothing_else {pipelines : List Pipeline}
    (hchecked : PipelineProblem.find reservedNames known pipelines = [])
    (hpipeline : pipeline ∈ pipelines) (hsteps : pipeline.steps = front ++ back)
    (hname : new.name ∉ pipeline.stepNames) (hreserved : new.name ∉ reservedNames)
    (hworks : ∀ step ∈ pipeline.steps, engine.WorksByConfig invocation.signal step)
    (hunits : ∀ step ∈ pipeline.steps, engine'.work step = engine.work step)
    (havoids : ∀ step ∈ pipeline.steps, step.Avoids new.name)
    (hclosed : w.store.Closed) (hinput : invocation.input.Within w.store.cells.size)
    (hnew : ∀ sc u, engine'.afterFront invocation front w = some (sc, u) →
      engine'.WorksUnnoticed invocation new sc u) :
    RunsAlike new.name front.length (pipeline.output ≠ none ∨ back ≠ [])
      (engine.callsOfRun pipeline invocation w)
      (engine'.callsOfRun { pipeline with steps := front ++ new :: back } invocation w)
      (engine.run pipeline invocation w).finish
      (engine'.run { pipeline with steps := front ++ new :: back } invocation w).finish := by
  have horder := (PipelineProblem.find_eq_nil_iff.mp hchecked).1 _ hpipeline
  have hcomparable := comparable_of_new horder hsteps hname
  have hunrelated : ∀ step ∈ front ++ back,
      engine.Unrelated engine' invocation.signal new.name step := by
    intro step hmem
    rw [← hsteps] at hmem
    refine ⟨hworks step hmem, hunits step hmem, havoids step hmem, ?_, (horder.named step hmem).2⟩
    exact fun heq => hname (heq ▸ List.mem_map_of_mem hmem)
  -- Both runs begin with the same scope, in the same world.
  have hstart : Beside new.name w.store.cells.size invocation.input [] []
      (w.withStore (w.store.alloc (.view [])).2).store
        (w.withStore (w.store.alloc (.view [])).2).store _ :=
    .start hclosed hinput
  by_cases hoff : invocation.IsOff (w.withStore (w.store.alloc (.view [])).2)
  · -- Then the first step of both runs is the same, as the new step would not succeed.
    cases front with
    | nil =>
      obtain ⟨τ, s, ⟨hcalm, -⟩, -⟩ := hnew _ _ rfl
      exact absurd hoff hcalm
    | cons step front =>
      rw [callsOfRun, run, hsteps]
      exact runsAlike_of_isOff hoff (Nat.succ_pos _)
  · have hnames : ([] : List StepRecord).map (·.name) ++ (front ++ back).map (·.name) =
        pipeline.stepNames := by
      rw [Pipeline.stepNames, hsteps]
      rfl
    have halike := runsAlike_of_insert
        (i := 0) hcomparable hunrelated hnames rfl id hreserved hstart hoff hoff hnew
    rw [Nat.zero_add, ← hsteps] at halike
    exact halike

/-- The units that are always there, and one that changes data in place. -/
def handyEngine : Engine :=
  ⟨⟨[], [("expr", some Units.expression), ("log", some Units.log),
    ("mutate", some (Units.probe "mutate" Units.mutating))]⟩, {}⟩

/-- A step that adds one to a number of the input. -/
def sumStep : Step :=
  ⟨"sum", "expr", [("value", .expression ⟨"input.n + 1",
    .binary "+" (.path [.name "input", .name "n"]) (.literal (.int 1))⟩)], ""⟩

/-- A step that passes the sum on. -/
def passStep : Step := ⟨"pass", "expr", [("value", .expression ⟨"sum", .path [.name "sum"]⟩)], ""⟩

/-- A step that logs the sum. -/
def noteStep : Step := ⟨"note", "log", [("message", .expression ⟨"sum", .path [.name "sum"]⟩)], ""⟩

/-- A pipeline of the first two. -/
def sumPipeline : Pipeline where
  route := ⟨"svc", "sum"⟩
  steps := [sumStep, passStep]

/-- The pipeline with the third one between them. -/
def notedPipeline : Pipeline := { sumPipeline with steps := [sumStep, noteStep, passStep] }

/-- An invocation of either. -/
def sumInvocation : Invocation := { input := .map [(.text "n", .int 2)] }

/-- Logging the sum changes nothing else. -/
theorem noted_runs_alike : PipelineProblem.find reservedNames (fun _ => true) [notedPipeline] = [] ∧
    (handyEngine.callsOfRun notedPipeline sumInvocation {}).map (·.step) =
      [sumStep, noteStep, passStep] ∧
    RunsAlike "note" 1 (sumPipeline.output ≠ none ∨ [passStep] ≠ [])
      (handyEngine.callsOfRun sumPipeline sumInvocation {})
        (handyEngine.callsOfRun notedPipeline sumInvocation {})
      (handyEngine.run sumPipeline sumInvocation {}).finish
        (handyEngine.run notedPipeline sumInvocation {}).finish := by
  have hchecked : PipelineProblem.find reservedNames (fun _ => true) [sumPipeline] = [] := rfl
  have hsteps : sumPipeline.steps = [sumStep] ++ [passStep] := rfl
  have hname : noteStep.name ∉ sumPipeline.stepNames := by decide
  have hreserved : noteStep.name ∉ reservedNames := by decide
  have hworks : ∀ step ∈ sumPipeline.steps,
      handyEngine.WorksByConfig sumInvocation.signal step := by
    refine List.forall_mem_cons.mpr ⟨worksByConfig_expression rfl, List.forall_mem_singleton.mpr ?_⟩
    exact worksByConfig_expression rfl
  have havoids : ∀ step ∈ sumPipeline.steps, step.Avoids noteStep.name := by
    refine List.forall_mem_cons.mpr ⟨Step.avoids_of_expression rfl ?_,
      List.forall_mem_singleton.mpr ?_⟩
    · have hparse : Expression.parse "input.n + 1" =
          .ok ⟨"input.n + 1", .binary "+" (.path [.name "input", .name "n"])
            (.literal (.int 1))⟩ := by cbv
      exact Expression.avoids_of_parse hparse (by decide) (by decide)
    · have hparse : Expression.parse "sum" = .ok ⟨"sum", .path [.name "sum"]⟩ := by cbv
      apply Step.avoids_of_expression rfl
      exact Expression.avoids_of_parse hparse (by decide) (by decide)
  have hclosed : ({} : World).store.Closed := fun address cell hcell => by
    cases hcell
  have hinput : sumInvocation.input.Within ({} : World).store.cells.size :=
    .map (List.forall_mem_singleton.mpr (.atom _))
  refine ⟨rfl, rfl, insert_changes_nothing_else hchecked
    (List.mem_cons_self ..) hsteps hname hreserved hworks
    (fun _ _ => rfl) havoids hclosed hinput ?_⟩
  -- The run comes to the new step past the first one, and writing to the log leaves all data alone.
  intro sc u hafter
  cases hafter
  exact ⟨_, _, ⟨Bool.false_ne_true, _, _, rfl, rfl⟩, fun _ _ _ hcell => hcell, rfl⟩

/-- A step that changes the items of the input in place. -/
def changeStep : Step :=
  ⟨"change", "mutate",
    [("items", .expression ⟨"input.items", .path [.name "input", .name "items"]⟩)], ""⟩

/-- A step that answers with these items. -/
def itemsStep : Step :=
  ⟨"items", "expr", [("value", .expression ⟨"input.items", .path [.name "input", .name "items"]⟩)],
    ""⟩

/-- A pipeline of the second one alone. -/
def itemsPipeline : Pipeline where
  route := ⟨"svc", "items"⟩
  steps := [itemsStep]

/-- A world with one list, and a map that holds it. -/
def itemsWorld : World :=
  { surroundings := { store := ⟨#[.list [.int 1], .map [(.text "items", .shared 0)]]⟩ } }

theorem closed_itemsWorld : itemsWorld.store.Closed := by
  intro address cell hcell
  obtain _ | _ | n := address
  · obtain rfl := Option.some.inj hcell
    exact List.forall_mem_singleton.mpr (.atom _)
  · obtain rfl := Option.some.inj hcell
    exact List.forall_mem_singleton.mpr (.shared Nat.zero_lt_two)
  · cases hcell

/-- Values that are lists of different lengths are not alike. -/
theorem not_endsAlike_of_lists {u u' : World} {a b : Nat} {vs ws : List Value}
    {outputs outputs' : Outputs} (hvalued : valued) (hlist : u.store.cell? a = some (.list vs))
    (hlist' : u'.store.cell? b = some (.list ws)) (hlength : vs.length ≠ ws.length) :
    ¬ EndsAlike name place valued (u, .ok (.success (.shared a) outputs))
      (u', .ok (.success (.shared b) outputs')) := by
  intro hends
  cases hends with
  | success hpairing _ hvalue =>
    cases hvalue hvalued with
    | shared hpaired =>
      obtain ⟨c, d, hc, hd, hmatches⟩ := hpairing.cells hpaired
      obtain rfl := Option.some.inj (hlist.symm.trans hc)
      obtain rfl := Option.some.inj (hlist'.symm.trans hd)
      cases hmatches with
      | list hitems => exact hlength hitems.length_eq

/-- **It is not enough that the new step succeeds**: if it changes the items of the input in place,
then the step behind it is called with other data, and answers something else. -/
theorem not_forall_insert_changes_nothing_else :
    ¬ ∀ (known known' : String → Bool) (pipelines pipelines' : List Pipeline)
    (engine engine' : Engine) (pipeline : Pipeline) (invocation : Invocation) (new : Step)
    (front back : List Step) (w : World), PipelineProblem.find reservedNames known pipelines = [] →
    pipeline ∈ pipelines →
    PipelineProblem.find reservedNames known' pipelines' = [] → pipeline.steps = front ++ back →
    { pipeline with steps := front ++ new :: back } ∈ pipelines' →
    (∀ step ∈ pipeline.steps, engine.WorksByConfig invocation.signal step) →
    (∀ step ∈ pipeline.steps, engine'.work step = engine.work step) →
    (∀ step ∈ pipeline.steps, step.Avoids new.name) →
    w.store.Closed → invocation.input.Within w.store.cells.size →
    (∀ sc u, engine'.afterFront invocation front w = some (sc, u) →
      ∃ σ s, engine'.Succeeds invocation new sc u σ s) →
    RunsAlike new.name front.length (pipeline.output ≠ none ∨ back ≠ [])
      (engine.callsOfRun pipeline invocation w)
      (engine'.callsOfRun { pipeline with steps := front ++ new :: back } invocation w)
      (engine.run pipeline invocation w).finish
      (engine'.run { pipeline with steps := front ++ new :: back } invocation w).finish := by
  intro h
  have hworks : ∀ step ∈ itemsPipeline.steps, handyEngine.WorksByConfig none step :=
    List.forall_mem_singleton.mpr (worksByConfig_expression rfl)
  have havoids : ∀ step ∈ itemsPipeline.steps, step.Avoids changeStep.name := by
    have hitems : Expression.parse "input.items" =
        .ok ⟨"input.items", .path [.name "input", .name "items"]⟩ := by cbv
    refine List.forall_mem_singleton.mpr (Step.avoids_of_expression rfl ?_)
    exact Expression.avoids_of_parse hitems (by decide) (by decide)
  have halike := h (fun _ => true) (fun _ => true) [itemsPipeline]
    [{ itemsPipeline with steps := [] ++ changeStep :: [itemsStep] }] handyEngine
      handyEngine itemsPipeline
    { input := .shared 1 } changeStep [] [itemsStep] itemsWorld rfl (List.mem_cons_self ..) rfl rfl
      (List.mem_cons_self ..)
    hworks (fun _ _ => rfl) havoids closed_itemsWorld (.shared Nat.one_lt_two) ?_
  · obtain ⟨u, outputs, hended, hbefore⟩ : ∃ u outputs,
        (handyEngine.run itemsPipeline { input := .shared 1 } itemsWorld).finish =
          (u, .ok (.success (.shared 0) outputs)) ∧
        u.store.cell? 0 = some (.list [.int 1]) := ⟨_, _, rfl, rfl⟩
    obtain ⟨u', outputs', hended', hafter⟩ : ∃ u outputs,
        (handyEngine.run { itemsPipeline with steps := [changeStep, itemsStep] }
          { input := .shared 1 } itemsWorld).finish =
          (u, .ok (.success (.shared 0) outputs)) ∧
        u.store.cell? 0 = some (.list [.int 1, .text "mutated"]) := ⟨_, _, rfl, rfl⟩
    have hends := halike.ends
    rw [List.nil_append, hended, hended'] at hends
    -- Both values are the list of the input, which does not hold the same in the end.
    exact not_endsAlike_of_lists (.inr (List.cons_ne_nil _ _)) hbefore hafter (by decide) hends
  · intro sc u hafter
    cases hafter
    exact ⟨_, _, Bool.false_ne_true, _, _, rfl, rfl⟩

end Engine

end Switchyard
