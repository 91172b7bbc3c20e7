import Switchyard.Proofs.Activity.Stop
import Switchyard.Proofs.Binding.Stored
import Switchyard.Proofs.Engine.ByConfig
import Switchyard.Proofs.Value.Change
import Switchyard.Units.Probe

/-!
# Units that keep no state

A unit may change in place whatever it is given, and whatever it makes. It keeps no state of its own
if that is all it does and all it goes by: called with the same data in two places it does the same
in both, up to where the data is kept, and leaves alone what neither call leads to.

The same invocation in two places is then one that finds the same everywhere: its bindings resolve
to the same, it records the same outputs, and it ends with the same value.

Main statements: readable expressions find the same (`Tree.evaluate_agrees`), outputs are recorded
alike (`Scope.record_agrees`), and units that only read keep no state (`keepsNoState_of_reading`),
the built-in ones among them (`keepsNoState_expression`, `keepsNoState_log`), like the one that
changes a list in place (`keepsNoState_mutating`).
-/

namespace Switchyard

open Store (Pairing GrowAlike ChangeAlike)

/-! ## §1 Expressions that can be read -/

section

variable {r : Nat → Nat → Prop} {σ τ : Store} {v w : Value}

/-- **What can be read** finds the same in the same data. -/
theorem Expression.Tree.evaluate_agrees {tree : Expression.Tree} (htree : tree.Atomic)
    (h : Pairing σ τ r) (hvw : v.Matches r w) :
    Agree (Value.Matches r) (tree.evaluate σ v) (tree.evaluate τ w) := by
  induction tree with
  | literal value =>
    obtain ⟨s, rfl⟩ := htree
    exact .ok (.atom s)
  | path segments => exact walk_agrees h hvw _ _
  | binary operator left right ihl ihr =>
    refine (ihl htree.1).bind fun a b hab => (ihr htree.2).bind fun a' b' hab' => ?_
    rw [add_eq_add hab.scalar?_eq hab'.scalar?_eq (h.kindName_eq hab) (h.kindName_eq hab')]
    refine Agree.of_eq rfl fun sum hsum => ?_
    obtain ⟨s, rfl⟩ := add_atom hsum
    exact .atom s
  | alien typeName => exact .error _

theorem contextsAgree_of_matches (hvw : v.Matches r w) :
    ContextsAgree (fun e => e.root.Atomic) σ v τ w r :=
  fun hgrown he => Expression.Tree.evaluate_agrees he hgrown.pairing (hgrown.matches_mono hvw)

/-- **A step of plain data** resolves to the same configuration in contexts that are the same. -/
theorem Step.IsPlain.resolve_agrees {step : Step} (h : step.IsPlain)
    (hpairing : Pairing σ τ r) (hvw : v.Matches r w) :
    Agree (Binding.ComeAlike Value.Matches σ τ r) (Binding.resolveRecord v step.bindings σ)
      (Binding.resolveRecord w step.bindings τ) :=
  Binding.resolve_agrees h hpairing (contextsAgree_of_matches hvw)

end

/-! ## §2 The same invocation in two places -/

/-- The same claims, up to where their attributes are kept. -/
structure Claims.Matches (r : Nat → Nat → Prop) (claims claims' : Claims) : Prop where
  subject : claims.subject = claims'.subject
  permissions : claims.permissions = claims'.permissions
  roles : claims.roles = claims'.roles
  attributes : claims.attributes.Correspond (Value.Matches r) claims'.attributes

/-- The same outputs, under the same names in the same order. -/
def Outputs.Matches (r : Nat → Nat → Prop) (outputs outputs' : Outputs) : Prop :=
  List.Forall₂ (fun o o' => o.1 = o'.1 ∧ o.2.Matches r o'.2) outputs outputs'

/-- **The same invocation in two places**: its input and its claims are the same data, and so are
its outputs and all that it shows to expressions. -/
structure Scope.Matches (r : Nat → Nat → Prop) (scope scope' : Scope) : Prop where
  input : scope.input.Matches r scope'.input
  claims : Option.Rel (Claims.Matches r) scope.claims scope'.claims
  correlationId : scope.correlationId = scope'.correlationId
  outputs : Outputs.Matches r scope.outputs scope'.outputs
  steps : r scope.steps scope'.steps
  roots : scope.roots.Correspond (Value.Matches r) scope'.roots

section

variable {r r' : Nat → Nat → Prop} {σ τ : Store} {v w : Value} {name : String}

theorem Claims.Matches.mono {claims claims' : Claims} (h : claims.Matches r claims')
    (himp : ∀ a b, r a b → r' a b) : claims.Matches r' claims' :=
  ⟨h.subject, h.permissions, h.roles, h.attributes.imp fun _ _ hvw => hvw.mono himp⟩

theorem Claims.rel_mono {claims claims' : Option Claims}
    (h : Option.Rel (Claims.Matches r) claims claims') (himp : ∀ a b, r a b → r' a b) :
    Option.Rel (Claims.Matches r') claims claims' := by
  cases h with
  | some h => exact .some (h.mono himp)
  | none => exact .none

namespace Outputs

variable {outputs outputs' : Outputs}

theorem Matches.mono (h : outputs.Matches r outputs') (himp : ∀ a b, r a b → r' a b) :
    outputs.Matches r' outputs' :=
  List.Forall₂.imp (fun _ _ hab => ⟨hab.1, hab.2.mono himp⟩) h

theorem Matches.names_eq (h : outputs.Matches r outputs') : outputs.names = outputs'.names := by
  induction h with
  | nil => rfl
  | cons hab _ ih => exact congrArg₂ List.cons hab.1 ih

/-- The same outputs have the same value under each name. -/
theorem Matches.get (h : outputs.Matches r outputs') (name : String) :
    Agree (Value.Matches r) (outputs.get name) (outputs'.get name) := by
  have hfound : Option.Rel (Value.Matches r) (outputs.find? name) (outputs'.find? name) := by
    induction h with
    | nil => exact .none
    | @cons o o' outputs outputs' hab _ ih =>
      simp only [find?, List.find?_cons, ← hab.1] at ih ⊢
      cases o.1 == name with
      | true => exact .some hab.2
      | false => exact ih
  unfold Outputs.get
  generalize outputs.find? name = x at hfound ⊢
  generalize outputs'.find? name = y at hfound ⊢
  cases hfound with
  | some hab => exact .ok hab
  | none => exact .error _

/-- The same outputs have the same last one. -/
theorem Matches.last (h : outputs.Matches r outputs') :
    Option.Rel (fun o o' => o.1 = o'.1 ∧ o.2.Matches r o'.2) outputs.last outputs'.last := by
  unfold Outputs.last
  rw [List.getLast?_eq_getElem?, List.getLast?_eq_getElem?, List.Forall₂.length_eq h]
  exact rel_getElem? h _

/-- **The same output is recorded alike.** -/
theorem Matches.record (h : outputs.Matches r outputs') (name : String) (hvw : v.Matches r w) :
    Agree (Outputs.Matches r) (outputs.record name v) (outputs'.record name w) := by
  have hcontains : outputs.contains name = outputs'.contains name := by
    rw [Bool.eq_iff_iff, contains_iff, contains_iff, h.names_eq]
  unfold Outputs.record
  rw [hcontains]
  split_ifs
  · exact .error _
  · exact .ok (List.rel_append h (.cons ⟨rfl, hvw⟩ .nil))

end Outputs

namespace Scope

variable {scope scope' : Scope}

theorem Matches.mono (h : scope.Matches r scope') (himp : ∀ a b, r a b → r' a b) :
    scope.Matches r' scope' where
  input := h.input.mono himp
  claims := Claims.rel_mono h.claims himp
  correlationId := h.correlationId
  outputs := h.outputs.mono himp
  steps := himp _ _ h.steps
  roots := h.roots.imp fun _ _ hvw => hvw.mono himp

theorem Matches.context (h : scope.Matches r scope') : scope.context.Matches r scope'.context :=
  Value.matches_map_iff.mpr h.roots

/-- **The same invocation begins alike.** -/
theorem start_matches {claims claims' : Option Claims} (correlationId : Option String)
    (h : Pairing σ τ r) (hvw : v.Matches r w)
    (hclaims : Option.Rel (Claims.Matches r) claims claims') :
    ∃ r', GrowAlike σ τ r (start v claims correlationId σ).2
      (start w claims' correlationId τ).2 r' ∧
      (start v claims correlationId σ).1.Matches r' (start w claims' correlationId τ).1 := by
  have hgrown := GrowAlike.alloc h (.view (.nil : Entries.Correspond (Value.Matches r) [] []))
  refine ⟨_, hgrown, ?_⟩
  exact
    { input := hgrown.matches_mono hvw
      claims := Claims.rel_mono hclaims fun _ _ => hgrown.keeps
      correlationId := rfl
      outputs := .nil
      steps := .inr ⟨rfl, rfl⟩
      roots := .cons ⟨rfl, hgrown.matches_mono hvw⟩ (.cons ⟨rfl, .shared (.inr ⟨rfl, rfl⟩)⟩ .nil) }

/-- Two scopes and their stores that the same invocation has come to. -/
def ComeAlike (σ τ : Store) (r : Nat → Nat → Prop) (x y : Scope × Store) : Prop :=
  ∃ r', ChangeAlike σ τ r x.2 y.2 r' ∧ x.1.Matches r' y.1

/-- **The same output is recorded alike**, or for the same reason not at all. -/
theorem record_agrees (h : Pairing σ τ r) (hscope : scope.Matches r scope') (name : String)
    (hvw : v.Matches r w) :
    Agree (ComeAlike σ τ r) (scope.record name v σ) (scope'.record name w τ) := by
  refine (hscope.outputs.record name hvw).bind fun outputs outputs' houtputs => .ok ?_
  have hentries : Entries.Correspond (Value.Matches r) [(.text "output", v)]
      [(.text "output", w)] :=
    .cons ⟨rfl, hvw⟩ .nil
  have hgrown := GrowAlike.alloc h (.view hentries)
  generalize hr' : (fun a b => r a b ∨ a = σ.cells.size ∧ b = τ.cells.size) = r' at hgrown
  have hnew : r' σ.cells.size τ.cells.size := hr' ▸ .inr ⟨rfl, rfl⟩
  -- The view of the steps shows the same so far, and one more output now.
  have hseen := Units.rel_entries? hgrown.pairing (.shared (hgrown.keeps hscope.steps))
  have hshown : ∀ {x y : Option Entries}, Option.Rel (Entries.Correspond (Value.Matches r')) x y →
      (x.getD []).Correspond (Value.Matches r') (y.getD []) := by
    intro x y hxy
    cases hxy with
    | some h => exact h
    | none => exact .nil
  have hset := ChangeAlike.set hgrown.pairing (hgrown.keeps hscope.steps)
    (.view ((hshown hseen).put (.text name) (.shared hnew)))
  have hchanged := (ChangeAlike.of_grown hgrown).trans hset
  refine ⟨r', hchanged, ?_⟩
  have hmono := hscope.mono fun _ _ => hchanged.keeps
  exact { hmono with
    outputs := houtputs.mono fun _ _ => hchanged.keeps
    roots := hmono.roots.put _ (hchanged.matches_mono hvw) }

end Scope

/-- **The same invocation ends with the same value.** -/
theorem Engine.answerOf_agrees {scope scope' : Scope} {pipeline pipeline' : Pipeline}
    (h : scope.Matches r scope') (houtput : pipeline.output = pipeline'.output) :
    Agree (Value.Matches r) (answerOf pipeline scope) (answerOf pipeline' scope') := by
  unfold answerOf
  rw [houtput]
  cases pipeline'.output with
  | some name => exact h.outputs.get name
  | none =>
    have hlast := h.outputs.last
    dsimp only
    generalize scope.outputs.last = x at hlast ⊢
    generalize scope'.outputs.last = y at hlast ⊢
    cases hlast with
    | some hab => exact .ok hab.2
    | none => exact .ok h.input

end

/-! ## §3 Going on alike -/

namespace Surroundings

variable {signal signal' : Option Nat} {s s' s'' t t' t'' : Surroundings}
  {r r' r'' : Nat → Nat → Prop}

/-- **An invocation has gone on alike in two places**: the stores have changed alike, it has been
called off in both or in neither, and the routes are served as before. -/
structure GoAlike (signal signal' : Option Nat) (s t : Surroundings) (r : Nat → Nat → Prop)
    (s' t' : Surroundings) (r' : Nat → Nat → Prop) : Prop where
  stores : ChangeAlike s.store t.store r s'.store t'.store r'
  given : s'.isGiven signal = t'.isGiven signal'
  withdrawn : s'.withdrawn = s.withdrawn
  withdrawn' : t'.withdrawn = t.withdrawn

theorem GoAlike.trans (h : GoAlike signal signal' s t r s' t' r')
    (h' : GoAlike signal signal' s' t' r' s'' t'' r'') :
    GoAlike signal signal' s t r s'' t'' r'' where
  stores := h.stores.trans h'.stores
  given := h'.given
  withdrawn := h'.withdrawn.trans h.withdrawn
  withdrawn' := h'.withdrawn'.trans h.withdrawn'

/-- Nothing has gone on yet. -/
theorem GoAlike.still (h : Pairing s.store t.store r)
    (hgiven : s.isGiven signal = t.isGiven signal') :
    GoAlike signal signal' s t r s t r :=
  ⟨.refl h, hgiven, rfl, rfl⟩

/-- What has gone on so far is where it goes on from. -/
theorem GoAlike.here (h : GoAlike signal signal' s t r s' t' r') :
    GoAlike signal signal' s' t' r' s' t' r' :=
  .still h.stores.pairing h.given

/-- Whether the invocation is called off is not in the store. -/
theorem GoAlike.of_changed {σ τ : Store} (h : ChangeAlike s.store t.store r σ τ r')
    (hgiven : s.isGiven signal = t.isGiven signal') :
    GoAlike signal signal' s t r { s with store := σ } { t with store := τ } r' :=
  ⟨h, hgiven, rfl, rfl⟩

/-- **Activities that stop alike**: both at a wait, or both at an end with what is the same. -/
def StopAlike {α : Type} (signal signal' : Option Nat) (p : (Nat → Nat → Prop) → α → α → Prop)
    (s t : Surroundings) (r : Nat → Nat → Prop) (x y : Surroundings × Option α) : Prop :=
  ∃ r', GoAlike signal signal' s t r x.1 y.1 r' ∧ Option.Rel (p r') x.2 y.2

theorem GoAlike.stop {α : Type} {p : (Nat → Nat → Prop) → α → α → Prop}
    {x y : Surroundings × Option α} (h : GoAlike signal signal' s t r s' t' r')
    (h' : StopAlike signal signal' p s' t' r' x y) :
    StopAlike signal signal' p s t r x y := by
  obtain ⟨r'', hgo, hxy⟩ := h'
  exact ⟨r'', h.trans hgo, hxy⟩

end Surroundings

/-! ## §4 Units that keep no state -/

open Surroundings (GoAlike StopAlike)

namespace Engine

variable {engine : Engine} {step : Step}

/-- **A step whose unit keeps no state of its own.** Called for the same invocation with the same
data in two places, it replies the same or waits in both. What it was called with may be changed in
place, and then it has been changed in both; whatever was paired with nothing is as it was. -/
structure KeepsNoState (engine : Engine) (step : Step) : Prop where
  stops : ∀ {r : Nat → Nat → Prop} {s t : Surroundings} {config config' : Value}
      {scope scope' : Scope} {signal signal' : Option Nat} (off : Bool),
    Pairing s.store t.store r → s.isGiven signal = t.isGiven signal' → config.Matches r config' →
      scope.Matches r scope' →
    StopAlike signal signal' (fun r => Reply.Matches r (Value.Matches r)) s t r
      ((engine.work step config (.invocation scope signal) s).stop off)
      ((engine.work step config' (.invocation scope' signal') t).stop off)

/-- What a step does depends on the units of a table and on nothing else in it. -/
theorem work_eq {engine' : Engine} (h : engine'.table.units = engine.table.units) (step : Step) :
    engine'.work step = engine.work step := by
  funext config caller
  simp only [work, PipelineTable.unitNamed, h]

theorem KeepsNoState.of_units {engine' : Engine} (h : engine.KeepsNoState step)
    (hunits : engine'.table.units = engine.table.units) : engine'.KeepsNoState step := by
  refine ⟨?_⟩
  rw [work_eq hunits]
  exact h.stops

/-- **A unit that only reads** keeps no state, if what it reads is the same in the same data. -/
theorem keepsNoState_of_reading
    (hdone : ∀ config caller s, engine.work step config caller s =
      .done (engine.reply step config caller s).1 (engine.reply step config caller s).2)
    (hrest : ∀ config caller s, ∃ log, (engine.reply step config caller s).1 = { s with log })
    (hreplies : ∀ {r : Nat → Nat → Prop} {s t : Surroundings} {config config' : Value}
        (caller caller' : Caller),
      Pairing s.store t.store r → config.Matches r config' →
      Reply.Matches r (Value.Matches r) (engine.reply step config caller s).2
        (engine.reply step config' caller' t).2) :
    engine.KeepsNoState step := by
  refine ⟨?_⟩
  intro r s t config config' scope scope' signal signal' off hpairing hgiven hconfig _
  have hanswers := hreplies (.invocation scope signal) (.invocation scope' signal') hpairing hconfig
  obtain ⟨log, hlog⟩ := hrest config (.invocation scope signal) s
  obtain ⟨log', hlog'⟩ := hrest config' (.invocation scope' signal') t
  rw [hdone config, hdone config', hlog, hlog']
  exact ⟨r, ⟨.refl hpairing, hgiven, rfl, rfl⟩, .some hanswers⟩

/-- **Expression units** keep no state. -/
theorem keepsNoState_expression
    (hunit : engine.table.unitNamed step.uses = .ok (some Units.expression)) :
    engine.KeepsNoState step := by
  have hwork : ∀ config caller s, engine.work step config caller s =
      .done s (Units.selected s.store config) := by
    intro config caller s
    rw [work_of_unitNamed hunit rfl]
  have hreply : ∀ config caller s, engine.reply step config caller s =
      (s, Units.selected s.store config) := by
    intro config caller s
    rw [reply, hwork]
    rfl
  refine keepsNoState_of_reading (fun config caller s => ?_) (fun config caller s => ⟨s.log, ?_⟩) ?_
  · rw [hwork, hreply]
  · rw [hreply]
  · intro r s t config config' caller caller' hpairing hconfig
    rw [hreply, hreply]
    exact Units.selected_matches hpairing hconfig

/-- **Log units** keep no state. -/
theorem keepsNoState_log (hunit : engine.table.unitNamed step.uses = .ok (some Units.log)) :
    engine.KeepsNoState step := by
  have hwork : engine.work step = Units.writeLog := work_of_unitNamed hunit rfl
  have hreply : ∀ config caller s, engine.reply step config caller s =
      (Units.writeLog config caller s).finish := by
    intro config caller s
    rw [reply, hwork]
  refine keepsNoState_of_reading (fun config caller s => ?_) (fun config caller s => ?_) ?_
  · rw [hreply, hwork]
    unfold Units.writeLog
    split
    · rfl
    · dsimp only
      split <;> rfl
  · rw [hreply]
    exact Units.exists_log_of_writeLog config caller s
  · intro r s t config config' caller caller' hpairing hconfig
    rw [hreply, hreply]
    exact Units.writeLog_matches hpairing hconfig caller caller'

/-- What the unit that changes a list in place comes to: the same for the same configuration. -/
theorem mutating_stops {r : Nat → Nat → Prop} {s t : Surroundings} {config config' : Value}
    {signal signal' : Option Nat} (off : Bool) (hpairing : Pairing s.store t.store r)
    (hgiven : s.isGiven signal = t.isGiven signal') (hconfig : config.Matches r config')
    (caller caller' : Caller) :
    StopAlike signal signal' (fun r => Reply.Matches r (Value.Matches r)) s t r
      ((Units.mutating config caller s).stop off)
        ((Units.mutating config' caller' t).stop off) := by
  have hbroken : ∀ {className message : String},
      (Raised.broken className message).Matches r (.broken className message) :=
    .other fun _ => Raised.noConfusion
  have hsame : GoAlike signal signal' s t r s t r := .still hpairing hgiven
  have hentries := Units.rel_entries? hpairing hconfig
  unfold Units.mutating Units.withEntries
  generalize s.store.entries? config = x at hentries ⊢
  generalize t.store.entries? config' = y at hentries ⊢
  cases hentries with
  | none =>
    rw [Units.noFields, Units.noFields, hpairing.typeName_eq hconfig]
    exact ⟨r, hsame, .some (.error hbroken)⟩
  | @some es fs hentries =>
    have hfield : Option.Rel (Value.Matches r) (es.field? "items") (fs.field? "items") :=
      hentries.get? _
    dsimp only
    generalize es.field? "items" = x at hfield ⊢
    generalize fs.field? "items" = y at hfield ⊢
    cases hfield with
    | none => exact ⟨r, hsame, .some (.error hbroken)⟩
    | @some v w hvw =>
      have hnoAppend : (Units.mutating.noAppend s.store v).Matches r
          (Units.mutating.noAppend t.store w) := by
        rw [Units.mutating.noAppend, Units.mutating.noAppend, hpairing.typeName_eq hvw]
        exact hbroken
      have hgrown : ∀ {vs ws : List Value}, List.Forall₂ (Value.Matches r) vs ws →
          List.Forall₂ (Value.Matches r) (vs ++ [.text "mutated"]) (ws ++ [.text "mutated"]) :=
        fun hitems => List.rel_append hitems (.cons (.atom _) .nil)
      cases hvw with
      | atom _ | tuple _ _ | map _ _ _ => exact ⟨r, hsame, .some (.error hnoAppend)⟩
      | list hlength hitems =>
        have hitems := hgrown (Value.matches_list_iff.mp (.list hlength hitems))
        exact ⟨r, hsame, .some (.ok (Value.matches_list_iff.mpr hitems))⟩
      | shared hab =>
        obtain ⟨c, d, hc, hd, hmatches⟩ := hpairing.cells hab
        simp only [hc, hd]
        cases hmatches with
        | map _ | view _ => exact ⟨r, hsame, .some (.error hnoAppend)⟩
        | list hitems =>
          -- Both lists are changed in place, and hold the same again.
          have hchanged := ChangeAlike.set hpairing hab (.list (hgrown hitems))
          exact ⟨r, .of_changed hchanged hgiven, .some (.ok (.shared hab))⟩

/-- **A unit that changes a list in place** keeps no state of its own. -/
theorem keepsNoState_mutating {name : String}
    (hunit : engine.table.unitNamed step.uses = .ok (some (Units.probe name Units.mutating))) :
    engine.KeepsNoState step := by
  refine ⟨?_⟩
  intro r s t config config' scope scope' signal signal' off hpairing hgiven hconfig _
  rw [work_of_unitNamed hunit rfl]
  exact mutating_stops off hpairing hgiven hconfig _ _

end Engine

end Switchyard
