import Switchyard.Proofs.Engine.Alone
import Switchyard.Proofs.Failure.Likeness
import Switchyard.Units.Builtin

/-!
# Units that work by their configuration

A unit works by its configuration alone if it replies the same whenever it is called with the
same data, and leaves alone everything else. Where the data is kept does not matter, nor who
calls, nor what else there is.

Main statements: the units that are always there work by their configuration
(`worksByConfig_expression`, `worksByConfig_log`), like every unit that only reads it
(`worksByConfig_of_reading`).
-/

namespace Switchyard

open Store (Pairing)

/-! ## §1 Replies -/

/-- **Replies that say the same**: related answers, or errors that say the same. -/
inductive Reply.Matches {α : Type} (r : Nat → Nat → Prop) (p : α → α → Prop) :
    Except Raised α → Except Raised α → Prop
  | ok {a b : α} : p a b → Matches r p (.ok a) (.ok b)
  | error {e e' : Raised} : e.Matches r e' → Matches r p (.error e) (.error e')

/-- Replies in a row say the same if the first ones do, and the second ones to
all that these answer. -/
theorem Reply.Matches.bind {α β : Type} {r : Nat → Nat → Prop} {p : α → α → Prop} {q : β → β → Prop}
    {x y : Except Raised α} {f g : α → Except Raised β} (h : Reply.Matches r p x y)
    (hf : ∀ a b, p a b → Reply.Matches r q (f a) (g b)) :
    Reply.Matches r q (x >>= f) (y >>= g) := by
  cases h with
  | ok hab => exact hf _ _ hab
  | error he => exact .error he

namespace Engine

/-- **A step whose unit works by its configuration alone**. Called with the same data it replies the
same, by whomever and in whatever surroundings it is called; what the replies lead to are containers
that were paired before, or new ones. It leaves alone what the invocation shows that calls it, and
does not call it off. -/
structure WorksByConfig (engine : Engine) (signal : Option Nat) (step : Step) : Prop where
  replies : ∀ {r : Nat → Nat → Prop} {s t : Surroundings} {config config' : Value}
      (caller caller' : Caller),
    Pairing s.store t.store r → config.Matches r config' →
    ∃ r', Pairing (engine.reply step config caller s).1.store
      (engine.reply step config' caller' t).1.store r' ∧
      (∀ {a b}, r' a b → r a b ∨ s.store.cells.size ≤ a ∧ t.store.cells.size ≤ b) ∧
      Reply.Matches r' (Value.Matches r') (engine.reply step config caller s).2
        (engine.reply step config' caller' t).2
  spares : ∀ (config : Value) (scope : Scope) (s : Surroundings),
    s.store.SameFrom scope.context (engine.reply step config (.invocation scope signal) s).1.store
  calm : ∀ (config : Value) (scope : Scope) (s : Surroundings), s.isGiven signal = false →
    (engine.reply step config (.invocation scope signal) s).1.isGiven signal = false

variable {engine : Engine} {step : Step}

/-- **A unit that only reads** works by its configuration, if what it reads is the
same in the same data. -/
theorem worksByConfig_of_reading {signal : Option Nat}
    (hstore : ∀ config caller s, (engine.reply step config caller s).1.store = s.store)
    (hsignals : ∀ config caller s, (engine.reply step config caller s).1.signals = s.signals)
    (hreplies : ∀ {r : Nat → Nat → Prop} {s t : Surroundings} {config config' : Value}
        (caller caller' : Caller),
      Pairing s.store t.store r → config.Matches r config' →
      Reply.Matches r (Value.Matches r) (engine.reply step config caller s).2
        (engine.reply step config' caller' t).2) :
    engine.WorksByConfig signal step where
  replies caller caller' hpairing hconfig := by
    refine ⟨_, ?_, .inl, hreplies caller caller' hpairing hconfig⟩
    rw [hstore, hstore]
    exact hpairing
  spares config scope s address cell _ hcell := by rw [hstore, hcell]
  calm config scope s hcalm := by
    unfold Surroundings.isGiven at hcalm ⊢
    rwa [hsignals]

/-- What a step does whose unit has been looked up. -/
theorem work_of_unitNamed {unit : StepUnit} {behaviour : Value → Caller → Call}
    (hunit : engine.table.unitNamed step.uses = .ok (some unit))
    (hbehaviour : unit.behaviour = some behaviour) :
    engine.work step = behaviour := by
  funext config caller
  simp only [work, hunit, hbehaviour]

end Engine

/-! ## §2 The expression unit -/

namespace Units

variable {r : Nat → Nat → Prop} {σ τ : Store} {config config' : Value}

/-- Items that are the same hold the same texts. -/
theorem any_same_eq {vs ws : List Value} (h : List.Forall₂ (Value.Matches r) vs ws) (s : Scalar) :
    vs.any (·.same (.atom s)) = ws.any (·.same (.atom s)) := by
  induction h with
  | nil => rfl
  | cons hvw _ ih =>
    rw [List.any_cons, List.any_cons, ih]
    cases hvw <;> rfl

/-- The same configuration says the same under a name. -/
theorem lookUp_matches (h : Pairing σ τ r) (hconfig : config.Matches r config') (name : String) :
    Reply.Matches r (Option.Rel (Value.Matches r)) (lookUp σ config name)
      (lookUp τ config' name) := by
  have hbroken : ∀ {className message : String},
      (Raised.broken className message).Matches r (.broken className message) :=
    .other fun _ => Raised.noConfusion
  have hshape := h.shape hconfig
  have htype := h.typeName_eq hconfig
  cases hconfig with
  | atom s =>
    cases s with
    | text s =>
      simp only [lookUp]
      split_ifs
      · exact .error hbroken
      · exact .ok .none
    | _ => exact .error hbroken
  | list _ _ | tuple _ _ | map _ _ _ | shared _ =>
    simp only [lookUp, htype]
    generalize Store.shape σ _ = shown at hshape ⊢
    generalize Store.shape τ _ = shown' at hshape ⊢
    cases hshape with
    | scalar s => exact .error hbroken
    | mapping hentries => exact .ok (hentries.get? _)
    | sequence hitems =>
      simp only [any_same_eq hitems]
      split_ifs
      · exact .error hbroken
      · exact .ok .none

/-- The same configuration is told by the same parts. -/
theorem keysOf_eq (h : Pairing σ τ r) (hconfig : config.Matches r config') :
    keysOf σ config = keysOf τ config' := by
  have hshape := h.shape hconfig
  cases hconfig with
  | atom s => cases s <;> rfl
  | list _ _ | tuple _ _ | map _ _ _ | shared _ =>
    simp only [keysOf]
    generalize Store.shape σ _ = shown at hshape ⊢
    generalize Store.shape τ _ = shown' at hshape ⊢
    cases hshape with
    | scalar s => rfl
    | mapping hentries => exact hentries.keys
    | sequence hitems =>
      dsimp only
      induction hitems with
      | nil => rfl
      | cons hvw _ ih =>
        rw [List.map_cons, List.map_cons, ih]
        cases hvw <;> rfl

/-- **What an expression unit returns** is the same for the same configuration. -/
theorem selected_matches (h : Pairing σ τ r) (hconfig : config.Matches r config') :
    Reply.Matches r (Value.Matches r) (selected σ config) (selected τ config') := by
  simp only [selected, keysOf_eq h hconfig]
  refine (lookUp_matches h hconfig _).bind fun x y hxy => ?_
  cases hxy with
  | some hvalue => exact .ok hvalue
  | none =>
    refine (lookUp_matches h hconfig _).bind fun x y hxy => ?_
    cases hxy with
    | some hdata => exact .ok hdata
    | none =>
      -- The error names the keys, which are plain.
      cases sortedKeys (keysOf τ config') with
      | none => exact .error (.other fun _ => Raised.noConfusion)
      | some keys =>
        have hplain : (Value.list (keys.map .atom)).Within 0 :=
          .list (List.forall_mem_map.mpr fun k _ => .atom k)
        exact .error (.fault rfl (.atom _) (.cons ⟨rfl, Value.matches_self_of_plain hplain⟩ .nil))

/-! ## §3 The log unit -/

/-- The same configuration has the same entries, or is no map. -/
theorem rel_entries? (h : Pairing σ τ r) (hconfig : config.Matches r config') :
    Option.Rel (Entries.Correspond (Value.Matches r)) (σ.entries? config) (τ.entries? config') := by
  have hshape := h.shape hconfig
  unfold Store.entries?
  generalize σ.shape config = shown at hshape ⊢
  generalize τ.shape config' = shown' at hshape ⊢
  cases hshape with
  | mapping hentries => exact .some hentries
  | scalar _ | sequence _ => exact .none

/-- What entries say under a name, or plain data in its place, is the same in
entries that correspond. -/
theorem field?_getD_matches {es fs : Entries} (h : es.Correspond (Value.Matches r) fs)
    (name : String) {v : Value} (hv : v.Within 0) :
    ((es.field? name).getD v).Matches r ((fs.field? name).getD v) := by
  have hfield := h.get? (.text name)
  unfold Entries.field?
  generalize es.get? (.text name) = x at hfield ⊢
  generalize fs.get? (.text name) = y at hfield ⊢
  cases hfield with
  | some hvw => exact hvw
  | none => exact Value.matches_self_of_plain hv

/-- A log unit writes to the log, and nothing else. -/
theorem exists_log_of_writeLog (config : Value) (caller : Caller) (s : Surroundings) :
    ∃ lines, (writeLog config caller s).finish.1 = { s with log := lines } := by
  unfold writeLog
  split
  · exact ⟨s.log, rfl⟩
  · dsimp only
    split
    · exact ⟨s.log, rfl⟩
    · exact ⟨_, rfl⟩

/-- **What a log unit returns** is the same for the same configuration. -/
theorem writeLog_matches {s t : Surroundings} (h : Pairing s.store t.store r)
    (hconfig : config.Matches r config') (caller caller' : Caller) :
    Reply.Matches r (Value.Matches r) (writeLog config caller s).finish.2
      (writeLog config' caller' t).finish.2 := by
  have hentries := rel_entries? h hconfig
  unfold writeLog
  generalize s.store.entries? config = x at hentries ⊢
  generalize t.store.entries? config' = y at hentries ⊢
  cases hentries with
  | none =>
    rw [noFields, noFields, h.typeName_eq hconfig]
    exact .error (.other fun _ => Raised.noConfusion)
  | @some es fs hentries =>
    -- The level is one of the known words in both, or in neither.
    have hlevel := h.shown_eq (field?_getD_matches hentries "level" (.atom (.text "info")))
    dsimp only
    rw [hlevel]
    cases levelOf? (Text.lower (((fs.field? "level").getD (.text "info")).shown t.store)) with
    | none => exact .error (.fault rfl (.atom _) (.cons ⟨rfl, .atom _⟩ .nil))
    | some level => exact .ok (field?_getD_matches hentries "value" (.atom .null))

end Units

/-! ## §4 Both units -/

namespace Engine

open Switchyard.Units

variable {engine : Engine} {step : Step} {signal : Option Nat}

/-- **Expression units** work by their configuration. -/
theorem worksByConfig_expression
    (hunit : engine.table.unitNamed step.uses = .ok (some expression)) :
    engine.WorksByConfig signal step := by
  have hreply : ∀ config caller s, engine.reply step config caller s =
      (s, selected s.store config) := by
    intro config caller s
    rw [reply, work_of_unitNamed hunit rfl]
    rfl
  refine worksByConfig_of_reading (fun _ _ _ => by rw [hreply]) (fun _ _ _ => by rw [hreply]) ?_
  intro r s t config config' caller caller' hpairing hconfig
  rw [hreply, hreply]
  exact selected_matches hpairing hconfig

/-- **Log units** work by their configuration. -/
theorem worksByConfig_log (hunit : engine.table.unitNamed step.uses = .ok (some log)) :
    engine.WorksByConfig signal step := by
  have hreply : ∀ config caller s, engine.reply step config caller s =
      (writeLog config caller s).finish := by
    intro config caller s
    rw [reply, work_of_unitNamed hunit rfl]
  have hrest : ∀ config caller s, ∃ lines, (engine.reply step config caller s).1 =
      { s with log := lines } := by
    intro config caller s
    rw [hreply]
    exact exists_log_of_writeLog config caller s
  refine worksByConfig_of_reading ?_ ?_ ?_
  · intro config caller s
    obtain ⟨lines, hlines⟩ := hrest config caller s
    rw [hlines]
  · intro config caller s
    obtain ⟨lines, hlines⟩ := hrest config caller s
    rw [hlines]
  · intro r s t config config' caller caller' hpairing hconfig
    rw [hreply, hreply]
    exact writeLog_matches hpairing hconfig caller caller'

end Engine

end Switchyard
