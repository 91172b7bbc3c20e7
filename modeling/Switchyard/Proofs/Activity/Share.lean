import Switchyard.Proofs.Activity.Ends
import Switchyard.Proofs.Activity.Pool

/-!
# What activities add to a trail

The state that activities share may hold a trail, to which each of them adds in its own turns. In
between others add to it, or do with it what they like; so the share of an activity is what it adds
itself, put together turn by turn.

Main statements: an activity has one share (`Adds.unique`), and the share of a composed activity is
made of the shares of its parts (`Adds.bind`, `Adds.bind_limited`, `Adds.bind_expired`).
-/

namespace Switchyard

namespace Activity

variable {σ τ α β κ ν : Type} {trail : σ → List κ} {off : Bool} {a : Activity σ α} {s t u : σ}
  {ts us : List σ} {x : α} {calls more own : List κ}

/-! ## §1 Shares -/

/-- **The share of an activity**: begun in a state, it has its turns in the given states, and this
is what it adds to the trail in them. -/
inductive Adds (trail : σ → List κ) : σ → Activity σ α → List σ → List κ → Prop
  | first {s : σ} {a : Activity σ α} {own : List κ} :
      trail a.state = trail s ++ own → Adds trail s a [] own
  | turn {s t : σ} {a b : Activity σ α} {ts : List σ} {own more : List κ} :
      trail a.state = trail s ++ own → a.next? t = some b → Adds trail t b ts more →
      Adds trail s a (t :: ts) (own ++ more)

/-- **An activity has one share.** -/
theorem Adds.unique {calls' : List κ} (h : Adds trail s a ts calls)
    (h' : Adds trail s a ts calls') : calls = calls' := by
  induction h generalizing calls' with
  | first hown =>
    cases h' with
    | first hown' => exact List.append_cancel_left (hown.symm.trans hown')
  | turn hown hnext _ ih =>
    cases h' with
    | turn hown' hnext' hmore' =>
      obtain rfl := List.append_cancel_left (hown.symm.trans hown')
      obtain rfl := Option.some.inj (hnext.symm.trans hnext')
      rw [ih hmore']

theorem adds_nil_iff : Adds trail s a [] calls ↔ trail a.state = trail s ++ calls := by
  constructor
  · intro h
    cases h with
    | first hown => exact hown
  · exact .first

theorem adds_cons_iff :
    Adds trail s a (t :: ts) calls ↔ ∃ own more b, calls = own ++ more ∧
      trail a.state = trail s ++ own ∧ a.next? t = some b ∧ Adds trail t b ts more := by
  constructor
  · intro h
    cases h with
    | turn hown hnext hmore => exact ⟨_, _, _, rfl, hown, hnext, hmore⟩
  · rintro ⟨own, more, b, rfl, hown, hnext, hmore⟩
    exact .turn hown hnext hmore

/-- What was added before an activity goes on counts as its own from an earlier state on. -/
theorem Adds.of_earlier (hown : trail t = trail s ++ own) (h : Adds trail t a ts calls) :
    Adds trail s a ts (own ++ calls) := by
  cases h with
  | first hfirst =>
    apply Adds.first
    rw [hfirst, hown, List.append_assoc]
  | turn hfirst hnext hmore =>
    rw [← List.append_assoc]
    refine Adds.turn ?_ hnext hmore
    rw [hfirst, hown, List.append_assoc]

/-- An activity that is over adds what it has added. -/
theorem adds_done_iff :
    Adds trail s (.done u x) ts calls ↔ ts = [] ∧ trail u = trail s ++ calls := by
  constructor
  · intro h
    cases h with
    | first hown => exact ⟨rfl, hown⟩
    | turn _ hnext _ => cases hnext
  · rintro ⟨rfl, hown⟩
    exact .first hown

/-- Stepping aside first adds nothing. -/
theorem Adds.later {activity : σ → Activity σ α} (h : Adds trail t (activity t) ts calls) :
    Adds trail s (later activity s) (t :: ts) calls := by
  rw [← List.nil_append calls]
  exact .turn (List.append_nil _).symm rfl h

/-- **Composition**: an activity that comes to its end adds its share, and what
follows adds its own. -/
theorem Adds.bind {next : σ → α → Activity σ β} (hends : a.Ends off ts u x)
    (h : Adds trail s a ts calls) (hnext : Adds trail u (next u x) us more) :
    Adds trail s (a.bind next) (ts ++ us) (calls ++ more) := by
  -- The induction is on the way to the end of the first activity, each turn of which
  -- is a turn of the whole.
  induction hends generalizing s calls with
  | done u x => exact .of_earlier (adds_done_iff.mp h).2 hnext
  | resumed _ ih =>
    cases h with
    | turn hown hturn hmore =>
      obtain rfl := Option.some.inj hturn
      rw [List.append_assoc]
      exact .turn hown rfl (ih hmore hnext)
  | calledOff _ _ ih =>
    cases h with
    | turn hown hturn hmore =>
      obtain rfl := Option.some.inj hturn
      rw [List.append_assoc]
      exact .turn hown rfl (ih hmore hnext)

/-- While an activity waits, what follows it adds nothing. -/
theorem Adds.bind_of_waits {next : σ → α → Activity σ β} (hwaits : a.Waits ts)
    (h : Adds trail s a ts calls) : Adds trail s (a.bind next) ts calls := by
  induction hwaits generalizing s calls with
  | here u callOff =>
    cases h with
    | first hown => exact .first hown
  | resumed _ ih =>
    cases h with
    | turn hown hturn hmore =>
      obtain rfl := Option.some.inj hturn
      exact .turn hown rfl (ih hmore)

/-- Changing the result changes nothing about the share. -/
theorem Adds.map {f : α → β} (h : Adds trail s a ts calls) : Adds trail s (a.map f) ts calls := by
  induction h with
  | @first s a own hown =>
    apply Adds.first
    rw [← hown]
    cases a <;> rfl
  | @turn s t a b ts own more hown hturn _ ih =>
    refine Adds.turn (b := b.map f) ?_ ?_ ih
    · rw [← hown]
      cases a <;> rfl
    · cases a <;> cases hturn <;> rfl

/-- A limit changes nothing about the share of an activity that comes to its end without a wait. -/
theorem Adds.of_ends_limited {expired : σ → Activity σ α} (hends : a.Ends false ts u x)
    (h : Adds trail s a ts calls) : Adds trail s (a.limited expired) ts calls := by
  induction hends generalizing s calls with
  | done u x => exact adds_done_iff.mpr (adds_done_iff.mp h)
  | resumed _ ih =>
    cases h with
    | turn hown hturn hmore =>
      obtain rfl := Option.some.inj hturn
      exact .turn hown rfl (ih hmore)
  | calledOff hoff _ _ => cases hoff

/-- An activity whose limit passes adds its share up to the wait, and what
takes over adds its own. -/
theorem Adds.of_waits_limited {expired : σ → Activity σ α} (hwaits : a.Waits ts)
    (h : Adds trail s a ts calls) (hexpired : Adds trail t (expired t) us more) :
    Adds trail s (a.limited expired) (ts ++ t :: us) (calls ++ more) := by
  induction hwaits generalizing s calls with
  | here u callOff =>
    cases h with
    | first hown => exact .turn hown rfl hexpired
  | resumed _ ih =>
    cases h with
    | turn hown hturn hmore =>
      obtain rfl := Option.some.inj hturn
      rw [List.append_assoc]
      exact .turn hown rfl (ih hmore)

/-- What follows an activity that comes to its end within its limit adds its own. -/
theorem Adds.bind_limited {expired : σ → Activity σ α} {next : σ → α → Activity σ β}
    (hends : a.Ends false ts u x) (h : Adds trail s a ts calls)
    (hnext : Adds trail u (next u x) us more) :
    Adds trail s ((a.limited expired).bind next) (ts ++ us) (calls ++ more) := by
  have hlimited : (a.limited expired).Ends false ts u x := ends_limited_iff.mpr (.inl hends)
  exact (h.of_ends_limited hends).bind hlimited hnext

/-- What follows an activity whose limit passes adds its own. -/
theorem Adds.bind_expired {expired : σ → Activity σ α} {next : σ → α → Activity σ β}
    (hwaits : a.Waits ts) (hexpired : expired t = .done t x) (h : Adds trail s a ts calls)
    (hnext : Adds trail t (next t x) us more) :
    Adds trail s ((a.limited expired).bind next) (ts ++ [t] ++ us) (calls ++ more) := by
  have hdone : (expired t).Ends true [] t x := by
    rw [hexpired]
    exact .done t x
  have hadds : Adds trail t (expired t) [] [] := by
    rw [hexpired]
    exact .first (List.append_nil _).symm
  have hlimited : (a.limited expired).Ends true (ts ++ [t]) t x :=
    ends_limited_iff.mpr (.inr ⟨rfl, ts, t, [], rfl, hwaits, hdone⟩)
  rw [← List.append_nil calls]
  exact (h.of_waits_limited hwaits hadds).bind hlimited hnext

/-- **Parts**: an activity over a part of a larger state adds to a trail in that part
what it adds there. -/
theorem Adds.within {part : τ → σ} {replace : τ → σ → τ} {v w : τ} {vs : List τ}
    (hpart : ∀ t s, part (replace t s) = s) (h : Adds trail (part v) a (vs.map part) calls) :
    Adds (fun t => trail (part t)) v (a.within part replace w) vs calls := by
  induction vs generalizing v w a calls with
  | nil =>
    cases h with
    | first hown =>
      apply Adds.first
      rw [state_within, hpart]
      exact hown
  | cons v' vs ih =>
    cases h with
    | turn hown hturn hmore =>
      refine Adds.turn ?_ ?_ (ih (w := v') hmore)
      · rw [state_within, hpart]
        exact hown
      · rw [next?_within, hturn]
        rfl

/-- What an activity adds that some of the calls are taken from. -/
theorem Adds.filterMap (f : κ → Option ν) (h : Adds trail s a ts calls) :
    Adds (fun s => (trail s).filterMap f) s a ts (calls.filterMap f) := by
  induction h with
  | first hown =>
    apply Adds.first
    simp only [hown, List.filterMap_append]
  | turn hown hturn _ ih =>
    rw [List.filterMap_append]
    refine Adds.turn ?_ hturn ih
    simp only [hown, List.filterMap_append]

/-- One more turn adds what it adds. -/
theorem Adds.concat {b : Activity σ α} (h : Adds trail s a ts calls)
    (hturn : (a.after ts).next? t = some b) (hown : trail b.state = trail t ++ own) :
    Adds trail s a (ts ++ [t]) (calls ++ own) := by
  induction h with
  | first hfirst => exact .turn hfirst hturn (.first hown)
  | @turn s t' a b' ts own' more hfirst hnext _ ih =>
    rw [List.append_assoc]
    refine Adds.turn hfirst hnext (ih ?_)
    rw [← after_singleton hnext, ← after_append]
    exact hturn

/-! ## §2 Turns -/

/-- The activity has a turn in each of the states. -/
def HasTurns : Activity σ α → List σ → Prop
  | _, [] => True
  | a, t :: ts => ∃ b, a.next? t = some b ∧ b.HasTurns ts

theorem Ends.hasTurns (h : a.Ends off ts u x) : a.HasTurns ts := by
  induction h with
  | done u x => trivial
  | resumed _ ih => exact ⟨_, rfl, ih⟩
  | calledOff _ _ ih => exact ⟨_, rfl, ih⟩

theorem Waits.hasTurns (h : a.Waits ts) : a.HasTurns ts := by
  induction h with
  | here u callOff => trivial
  | resumed _ ih => exact ⟨_, rfl, ih⟩

/-- An activity ends as what is left of it does after its turns. -/
theorem ends_of_after (hturns : a.HasTurns ts) (h : (a.after ts).Ends true us u x) :
    a.Ends true (ts ++ us) u x := by
  induction ts generalizing a with
  | nil => exact h
  | cons t ts ih =>
    obtain ⟨b, hnext, hturns⟩ := hturns
    have hends : (((a.next? t).getD a).after ts).Ends true us u x := h
    rw [hnext] at hends
    cases a with
    | done s y => cases hnext
    | paused s resume =>
      obtain rfl := Option.some.inj hnext
      exact .resumed (ih hturns hends)
    | waiting s callOff =>
      obtain rfl := Option.some.inj hnext
      exact .calledOff rfl (ih hturns hends)

/-- An activity over a part of a larger state adds nothing to a trail outside of that part. -/
theorem adds_nil_within {part : τ → σ} {replace : τ → σ → τ} {trail : τ → List κ}
    {v : τ} {vs : List τ} (htrail : ∀ t s, trail (replace t s) = trail t)
    (h : (a.within part replace v).HasTurns vs) :
    Adds trail v (a.within part replace v) vs [] := by
  induction vs generalizing a v with
  | nil =>
    apply Adds.first
    rw [state_within, htrail, List.append_nil]
  | cons v' vs ih =>
    obtain ⟨b, hturn, hturns⟩ := h
    rw [next?_within] at hturn
    obtain ⟨b', hb', rfl⟩ := Option.map_eq_some_iff.mp hturn
    rw [← List.nil_append []]
    refine Adds.turn ?_ ?_ (ih hturns)
    · rw [state_within, htrail, List.append_nil]
    · rw [next?_within, hb']
      rfl

/-! ## §3 Growth -/

/-- **An activity only adds** to the trail, in whatever states it has its turns. -/
def Grows (trail : σ → List κ) : σ → Activity σ α → Prop
  | s, .done u _ => trail s <+: trail u
  | s, .paused u resume => trail s <+: trail u ∧ ∀ t, (resume t).Grows trail t
  | s, .waiting u callOff => trail s <+: trail u ∧ ∀ t, (callOff t).Grows trail t

theorem Grows.state (h : Grows trail s a) : trail s <+: trail a.state := by
  cases a with
  | done u x => exact h
  | paused u resume => exact h.1
  | waiting u callOff => exact h.1

theorem Grows.next {b : Activity σ α} (h : Grows trail s a) (hturn : a.next? t = some b) :
    Grows trail t b := by
  cases a with
  | done u x => cases hturn
  | paused u resume =>
    obtain rfl := Option.some.inj hturn
    exact h.2 t
  | waiting u callOff =>
    obtain rfl := Option.some.inj hturn
    exact h.2 t

/-- After its turns an activity still only adds. -/
theorem Grows.after (h : Grows trail s a) (ts : List σ) : ∃ s, Grows trail s (a.after ts) := by
  induction ts generalizing a s with
  | nil => exact ⟨s, h⟩
  | cons t ts ih =>
    show ∃ s, Grows trail s (((a.next? t).getD a).after ts)
    cases hturn : a.next? t with
    | none => exact ih h
    | some b => exact ih (h.next hturn)

theorem Grows.of_earlier (hle : trail s <+: trail t) (h : Grows trail t a) : Grows trail s a := by
  cases a with
  | done u x => exact hle.trans h
  | paused u resume => exact ⟨hle.trans h.1, h.2⟩
  | waiting u callOff => exact ⟨hle.trans h.1, h.2⟩

theorem Grows.later {activity : σ → Activity σ α} (h : ∀ t, Grows trail t (activity t)) :
    Grows trail s (later activity s) :=
  ⟨List.prefix_rfl, h⟩

theorem Grows.bind {next : σ → α → Activity σ β} (h : Grows trail s a)
    (hnext : ∀ u x, Grows trail u (next u x)) : Grows trail s (a.bind next) := by
  induction a generalizing s with
  | done u x => exact .of_earlier h (hnext u x)
  | paused u resume ih => exact ⟨h.1, fun t => ih t (h.2 t)⟩
  | waiting u callOff ih => exact ⟨h.1, fun t => ih t (h.2 t)⟩

theorem Grows.map {f : α → β} (h : Grows trail s a) : Grows trail s (a.map f) := by
  induction a generalizing s with
  | done u x => exact h
  | paused u resume ih => exact ⟨h.1, fun t => ih t (h.2 t)⟩
  | waiting u callOff ih => exact ⟨h.1, fun t => ih t (h.2 t)⟩

theorem Grows.limited {expired : σ → Activity σ α} (h : Grows trail s a)
    (hexpired : ∀ t, Grows trail t (expired t)) : Grows trail s (a.limited expired) := by
  induction a generalizing s with
  | done u x => exact h
  | paused u resume ih => exact ⟨h.1, fun t => ih t (h.2 t)⟩
  | waiting u callOff _ => exact ⟨h.1, hexpired⟩

/-- **Parts**: an activity over a part of a larger state only adds to a trail in that part if the
activity itself does. -/
theorem Grows.within {part : τ → σ} {replace : τ → σ → τ} {v w : τ}
    (hpart : ∀ t s, part (replace t s) = s) (h : Grows trail (part v) a) :
    Grows (fun t => trail (part t)) v (a.within part replace w) := by
  have hreplaced : ∀ {v w s}, trail (part v) <+: trail s →
      trail (part v) <+: trail (part (replace w s)) := by
    intro v w s hle
    rwa [hpart]
  induction a generalizing v w with
  | done u x => exact hreplaced h
  | paused u resume ih => exact ⟨hreplaced h.1, fun t => ih (part t) (h.2 (part t))⟩
  | waiting u callOff ih => exact ⟨hreplaced h.1, fun t => ih (part t) (h.2 (part t))⟩

/-- An activity over a part of a larger state leaves a trail outside of that part alone. -/
theorem grows_within_of_outside {part : τ → σ} {replace : τ → σ → τ} {trail : τ → List κ} {v : τ}
    (htrail : ∀ t s, trail (replace t s) = trail t) : Grows trail v (a.within part replace v) := by
  have hkept : ∀ v s, trail v <+: trail (replace v s) := by
    intro v s
    exact ⟨[], by rw [htrail, List.append_nil]⟩
  induction a generalizing v with
  | done u x => exact hkept v u
  | paused u resume ih => exact ⟨hkept v u, fun t => ih (part t)⟩
  | waiting u callOff ih => exact ⟨hkept v u, fun t => ih (part t)⟩

end Activity

end Switchyard
