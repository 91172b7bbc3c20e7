import Switchyard.Activity

/-!
# The ways in which activities go

An activity that suspends itself goes on from whatever state the others leave. One way in which it
goes is therefore given by the states in which it is resumed; they decide in which state it ends and
with which result. A wait goes on only when it is called off.

Main statements: an activity ends in any case if waits are called off, and else comes to an end or
to a wait (`exists_ends`, `ends_or_waits`); the ways of a composed activity are made of the ways of
its parts (`ends_bind_iff`); a limit leaves the ways without a wait alone (`ends_limited_iff`); and
an activity over a part of a larger state goes as the activity itself does (`ends_within_iff`).
-/

namespace Switchyard.Activity

variable {σ τ α β : Type} {off : Bool}

/-! ## §1 Ways of going -/

/-- **A way of going**: the activity is resumed in the given states, one after another, and ends in
a state with a result. Waits are called off only if `off` says so. -/
inductive Ends (off : Bool) : Activity σ α → List σ → σ → α → Prop
  | done (s : σ) (x : α) :
      Ends off (.done s x) [] s x
  | resumed {s t u : σ} {resume : σ → Activity σ α} {ts : List σ} {x : α} :
      Ends off (resume t) ts u x → Ends off (.paused s resume) (t :: ts) u x
  | calledOff {s t u : σ} {callOff : σ → Activity σ α} {ts : List σ} {x : α} :
      off = true → Ends off (callOff t) ts u x → Ends off (.waiting s callOff) (t :: ts) u x

@[simp] theorem ends_done_iff {s u : σ} {x y : α} {ts : List σ} :
    (Activity.done s x).Ends off ts u y ↔ ts = [] ∧ u = s ∧ y = x := by
  constructor
  · intro h
    cases h
    exact ⟨rfl, rfl, rfl⟩
  · rintro ⟨rfl, rfl, rfl⟩
    exact .done _ _

@[simp] theorem ends_paused_iff {s u : σ} {resume : σ → Activity σ α} {y : α} {ts : List σ} :
    (Activity.paused s resume).Ends off ts u y ↔
      ∃ t rest, ts = t :: rest ∧ (resume t).Ends off rest u y := by
  constructor
  · intro h
    cases h with
    | resumed h => exact ⟨_, _, rfl, h⟩
  · rintro ⟨t, rest, rfl, h⟩
    exact .resumed h

@[simp] theorem ends_waiting_iff {s u : σ} {callOff : σ → Activity σ α} {y : α} {ts : List σ} :
    (Activity.waiting s callOff).Ends off ts u y ↔
      off = true ∧ ∃ t rest, ts = t :: rest ∧ (callOff t).Ends off rest u y := by
  constructor
  · intro h
    cases h with
    | calledOff hoff h => exact ⟨hoff, _, _, rfl, h⟩
  · rintro ⟨hoff, t, rest, rfl, h⟩
    exact .calledOff hoff h

/-- A way that calls no wait off is open in any case. -/
theorem Ends.of_noneOff {a : Activity σ α} {ts : List σ} {u : σ} {x : α}
    (h : a.Ends false ts u x) : a.Ends off ts u x := by
  induction h with
  | done s x => exact .done s x
  | resumed _ ih => exact .resumed ih
  | calledOff hoff _ _ => exact absurd hoff (by simp)

/-- A way of going has one end. -/
theorem Ends.unique {off' : Bool} {a : Activity σ α} {ts : List σ} {s u : σ} {x y : α}
    (h : a.Ends off ts s x) (h' : a.Ends off' ts u y) : s = u ∧ x = y := by
  induction h with
  | done s x =>
    obtain ⟨-, rfl, rfl⟩ := ends_done_iff.mp h'
    exact ⟨rfl, rfl⟩
  | resumed _ ih =>
    obtain ⟨t, rest, hts, hrest⟩ := ends_paused_iff.mp h'
    obtain ⟨rfl, rfl⟩ := List.cons.inj hts
    exact ih hrest
  | calledOff _ _ ih =>
    obtain ⟨-, t, rest, hts, hrest⟩ := ends_waiting_iff.mp h'
    obtain ⟨rfl, rfl⟩ := List.cons.inj hts
    exact ih hrest

/-! ## §2 Composition -/

/-- **Composition**: a way of `a.bind next` is a way of `a` followed by a way of what
`next` makes of its end. -/
theorem ends_bind_iff {a : Activity σ α} {next : σ → α → Activity σ β} {ts : List σ}
    {u : σ} {y : β} : (a.bind next).Ends off ts u y ↔
      ∃ before after s x, ts = before ++ after ∧ a.Ends off before s x ∧
        (next s x).Ends off after u y := by
  -- The states before the end of the first part belong to it, the rest to the second part.
  induction a generalizing ts with
  | done s x =>
    constructor
    · intro h
      exact ⟨[], ts, s, x, rfl, .done s x, h⟩
    · rintro ⟨before, after, s', x', rfl, h, h'⟩
      obtain ⟨rfl, rfl, rfl⟩ := ends_done_iff.mp h
      exact h'
  | paused s resume ih =>
    constructor
    · intro h
      obtain ⟨t, rest, rfl, hrest⟩ := ends_paused_iff.mp h
      obtain ⟨before, after, s', x', rfl, h₁, h₂⟩ := (ih t).mp hrest
      exact ⟨t :: before, after, s', x', rfl, .resumed h₁, h₂⟩
    · rintro ⟨before, after, s', x', rfl, h₁, h₂⟩
      obtain ⟨t, rest, rfl, hrest⟩ := ends_paused_iff.mp h₁
      exact .resumed ((ih t).mpr ⟨rest, after, s', x', rfl, hrest, h₂⟩)
  | waiting s callOff ih =>
    constructor
    · intro h
      obtain ⟨hoff, t, rest, rfl, hrest⟩ := ends_waiting_iff.mp h
      obtain ⟨before, after, s', x', rfl, h₁, h₂⟩ := (ih t).mp hrest
      exact ⟨t :: before, after, s', x', rfl, .calledOff hoff h₁, h₂⟩
    · rintro ⟨before, after, s', x', rfl, h₁, h₂⟩
      obtain ⟨hoff, t, rest, rfl, hrest⟩ := ends_waiting_iff.mp h₁
      exact .calledOff hoff ((ih t).mpr ⟨rest, after, s', x', rfl, hrest, h₂⟩)

/-- Changing the result changes nothing else about the ways of an activity. -/
@[simp] theorem ends_map_iff {f : α → β} {a : Activity σ α} {ts : List σ} {u : σ} {y : β} :
    (a.map f).Ends off ts u y ↔ ∃ x, a.Ends off ts u x ∧ y = f x := by
  induction a generalizing ts with
  | done s x =>
    simp only [Activity.map, ends_done_iff]
    grind
  | paused s resume ih =>
    simp only [Activity.map, ends_paused_iff, ih]
    grind
  | waiting s callOff ih =>
    simp only [Activity.map, ends_waiting_iff, ih]
    grind

/-- Stepping aside first costs one resumption. -/
@[simp] theorem ends_later_iff {activity : σ → Activity σ α} {s u : σ} {ts : List σ} {y : α} :
    (later activity s).Ends off ts u y ↔ ∃ t rest, ts = t :: rest ∧
      (activity t).Ends off rest u y :=
  ends_paused_iff

/-! ## §3 Ends and waits -/

/-- **A way to a wait**: the activity is resumed in the given states and then waits. -/
inductive Waits : Activity σ α → List σ → Prop
  | here (s : σ) (callOff : σ → Activity σ α) :
      Waits (.waiting s callOff) []
  | resumed {s t : σ} {resume : σ → Activity σ α} {ts : List σ} :
      Waits (resume t) ts → Waits (.paused s resume) (t :: ts)

/-- The first states of a sequence are its first one and the first ones of what follows it. -/
theorem map_range_succ (states : Nat → σ) (n : Nat) :
    (List.range (n + 1)).map states = states 0 :: (List.range n).map fun i => states (i + 1) := by
  rw [List.range_succ_eq_map, List.map_cons, List.map_map]
  rfl

/-- **Every activity ends** if waits are called off, whatever the states are in
which it is resumed. -/
theorem exists_ends (a : Activity σ α) (states : Nat → σ) :
    ∃ n s x, a.Ends true ((List.range n).map states) s x := by
  -- Each turn takes the first state and leaves the others to what follows.
  induction a generalizing states with
  | done s x => exact ⟨0, s, x, .done s x⟩
  | paused s resume ih =>
    obtain ⟨n, u, x, h⟩ := ih (states 0) fun i => states (i + 1)
    refine ⟨n + 1, u, x, ?_⟩
    rw [map_range_succ]
    exact .resumed h
  | waiting s callOff ih =>
    obtain ⟨n, u, x, h⟩ := ih (states 0) fun i => states (i + 1)
    refine ⟨n + 1, u, x, ?_⟩
    rw [map_range_succ]
    exact .calledOff rfl h

/-- **Every activity ends or waits**, whatever the states are in which it is resumed. -/
theorem ends_or_waits (a : Activity σ α) (states : Nat → σ) :
    ∃ n, (∃ s x, a.Ends false ((List.range n).map states) s x) ∨
      a.Waits ((List.range n).map states) := by
  induction a generalizing states with
  | done s x => exact ⟨0, .inl ⟨s, x, .done s x⟩⟩
  | paused s resume ih =>
    obtain ⟨n, h⟩ := ih (states 0) fun i => states (i + 1)
    refine ⟨n + 1, ?_⟩
    rw [map_range_succ]
    rcases h with ⟨u, x, hends⟩ | hwaits
    · exact .inl ⟨u, x, .resumed hends⟩
    · exact .inr (.resumed hwaits)
  -- A wait is reached as it stands, no turn is needed.
  | waiting s callOff _ => exact ⟨0, .inr (.here s callOff)⟩

/-- Changing the result changes nothing about the waits of an activity. -/
@[simp] theorem waits_map_iff {f : α → β} {a : Activity σ α} {ts : List σ} :
    (a.map f).Waits ts ↔ a.Waits ts := by
  induction a generalizing ts with
  | done s x => constructor <;> intro h <;> cases h
  | paused s resume ih =>
    constructor
    · rintro ⟨⟩
      exact .resumed ((ih _).mp ‹_›)
    · rintro ⟨⟩
      exact .resumed ((ih _).mpr ‹_›)
  | waiting s callOff _ =>
    constructor
    · rintro ⟨⟩
      exact .here s callOff
    · rintro ⟨⟩
      exact .here s _

/-- **A wait in a composition** is one of the first part, or the first part ends and what it
makes of that waits. -/
theorem waits_bind_iff {a : Activity σ α} {next : σ → α → Activity σ β} {ts : List σ} :
    (a.bind next).Waits ts ↔
      a.Waits ts ∨ ∃ before after s x, ts = before ++ after ∧ a.Ends false before s x ∧
        (next s x).Waits after := by
  induction a generalizing ts with
  | done s x =>
    constructor
    · intro h
      exact .inr ⟨[], ts, s, x, rfl, .done s x, h⟩
    · rintro (h | ⟨before, after, s', x', rfl, hends, hwaits⟩)
      · cases h
      · obtain ⟨rfl, rfl, rfl⟩ := ends_done_iff.mp hends
        exact hwaits
  | paused s resume ih =>
    constructor
    · rintro ⟨⟩
      rename_i t ts h
      rcases (ih t).mp h with hwaits | ⟨before, after, s', x', rfl, hends, hwaits⟩
      · exact .inl (.resumed hwaits)
      · exact .inr ⟨t :: before, after, s', x', rfl, .resumed hends, hwaits⟩
    · rintro (h | ⟨before, after, s', x', rfl, hends, hwaits⟩)
      · cases h with
        | resumed hwaits => exact .resumed ((ih _).mpr (.inl hwaits))
      · obtain ⟨t, rest, rfl, hrest⟩ := ends_paused_iff.mp hends
        exact .resumed ((ih t).mpr (.inr ⟨rest, after, s', x', rfl, hrest, hwaits⟩))
  | waiting s callOff _ =>
    constructor
    · rintro ⟨⟩
      exact .inl (.here s callOff)
    · rintro (h | ⟨before, after, s', x', rfl, hends, -⟩)
      · cases h
        exact .here s _
      -- Without calling waits off the first part does not end.
      · exact absurd (ends_waiting_iff.mp hends).1 (by simp)

/-- **Limits**: with a limit an activity ends as it would without a wait, or it waits and
what takes over ends. -/
theorem ends_limited_iff {expired : σ → Activity σ α} {a : Activity σ α} {ts : List σ}
    {u : σ} {x : α} : (a.limited expired).Ends off ts u x ↔
      a.Ends false ts u x ∨
        off = true ∧ ∃ before t rest, ts = before ++ t :: rest ∧ a.Waits before ∧
          (expired t).Ends off rest u x := by
  induction a generalizing ts with
  | done s y =>
    constructor
    · intro h
      obtain ⟨rfl, rfl, rfl⟩ := ends_done_iff.mp h
      exact .inl (.done _ _)
    · rintro (h | ⟨-, _, _, _, _, h, -⟩)
      · exact h.of_noneOff
      · -- What is over cannot wait any more.
        cases h
  | paused s resume ih =>
    constructor
    · intro h
      obtain ⟨t, rest, rfl, hrest⟩ := ends_paused_iff.mp h
      rcases (ih t).mp hrest with hends | ⟨hoff, before, t', rest', rfl, hwaits, hexpired⟩
      · exact .inl (.resumed hends)
      · exact .inr ⟨hoff, t :: before, t', rest', rfl, .resumed hwaits, hexpired⟩
    · rintro (h | ⟨hoff, before, t', rest', rfl, hwaits, hexpired⟩)
      · obtain ⟨t, rest, rfl, hrest⟩ := ends_paused_iff.mp h
        exact .resumed ((ih t).mpr (.inl hrest))
      · cases hwaits with
        | resumed hwaits =>
          exact .resumed ((ih _).mpr (.inr ⟨hoff, _, t', rest', rfl, hwaits, hexpired⟩))
  | waiting s callOff _ =>
    constructor
    · intro h
      obtain ⟨hoff, t, rest, rfl, hexpired⟩ := ends_waiting_iff.mp h
      exact .inr ⟨hoff, [], t, rest, rfl, .here s callOff, hexpired⟩
    · rintro (h | ⟨hoff, before, t', rest', rfl, hwaits, hexpired⟩)
      -- Without calling waits off there is no way on from a wait.
      · exact absurd (ends_waiting_iff.mp h).1 (by simp)
      · cases hwaits with
        | here => exact .calledOff hoff hexpired

/-! ## §4 Parts of a larger state -/

/-- **Parts**: an activity over a part of a larger state goes as the activity itself does, and
leaves everything else as the others left it last. -/
theorem ends_within_iff {part : τ → σ} {replace : τ → σ → τ} {a : Activity σ α} {t u : τ}
    {ts : List τ} {x : α} : (a.within part replace t).Ends off ts u x ↔
      ∃ s, a.Ends off (ts.map part) s x ∧ u = replace (ts.getLastD t) s := by
  -- What remains of the larger state is that of the last resumption, or the first
  -- one if there was none.
  induction a generalizing t ts with
  | done s x =>
    simp only [Activity.within, ends_done_iff, List.map_eq_nil_iff]
    grind
  | paused s resume ih =>
    simp only [Activity.within, ends_paused_iff, ih]
    constructor
    · rintro ⟨t', rest, rfl, s', h, rfl⟩
      exact ⟨s', ⟨_, _, rfl, h⟩, by rw [List.getLastD_cons]⟩
    · rintro ⟨s', ⟨v, vs, hmap, h⟩, rfl⟩
      obtain ⟨t', rest, rfl, rfl, rfl⟩ := List.map_eq_cons_iff.mp hmap
      exact ⟨t', rest, rfl, s', h, by rw [List.getLastD_cons]⟩
  | waiting s callOff ih =>
    simp only [Activity.within, ends_waiting_iff, ih]
    constructor
    · rintro ⟨hoff, t', rest, rfl, s', h, rfl⟩
      exact ⟨s', ⟨hoff, _, _, rfl, h⟩, by rw [List.getLastD_cons]⟩
    · rintro ⟨s', ⟨hoff, v, vs, hmap, h⟩, rfl⟩
      obtain ⟨t', rest, rfl, rfl, rfl⟩ := List.map_eq_cons_iff.mp hmap
      exact ⟨hoff, t', rest, rfl, s', h, by rw [List.getLastD_cons]⟩

end Switchyard.Activity
