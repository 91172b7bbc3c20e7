import Switchyard.Proofs.Activity.Share

/-!
# Activities that go alike up to a mark

Entries of a trail may be marked, each in view of those before it. Two activities go alike up to a
mark if they leave alike states, go on alike from alike states, and end with the same result, for as
long as the first one adds no marked entry to its trail. Once it has added one, something else is
known of what is left of it. What is alike about states is up to a relation between them, which need
not keep everything.

Main statements: composed activities go alike up to a mark if their parts do (`AlikeUntil.bind`,
`AlikeUntil.limited`, `AlikeUntil.within`); as long as no marked entry is added they have the same
results and add the same (`AlikeUntil.ends_iff`, `AlikeUntil.adds_iff`); and once one is added, what
is known is the case (`AlikeUntil.exists_of_mark`).
-/

namespace Switchyard

variable {σ τ α β κ ε : Type} {trail : σ → List κ} {mark : List κ → κ → Option ε}

/-! ## §1 Marks -/

/-- The first mark on entries that come on a trail one after another. -/
def firstMark (mark : List κ → κ → Option ε) : (before : List κ) → List κ → Option ε
  | _, [] => none
  | before, entry :: rest => (mark before entry).or (firstMark mark (before ++ [entry]) rest)

theorem firstMark_append {before xs ys : List κ} :
    firstMark mark before (xs ++ ys) =
      (firstMark mark before xs).or (firstMark mark (before ++ xs) ys) := by
  induction xs generalizing before with
  | nil => simp [firstMark]
  | cons x xs ih =>
    rw [List.cons_append, firstMark, firstMark, ih, Option.or_assoc, List.append_assoc]
    rfl

/-- The first mark on what came on the trail between two states. -/
def markBetween (trail : σ → List κ) (mark : List κ → κ → Option ε) (z s : σ) : Option ε :=
  firstMark mark (trail z) ((trail s).drop (trail z).length)

/-- A trail in a part of larger states has the marks that it has there. -/
theorem markBetween_part {σ' : Type} {part : σ' → σ} {replace : σ' → σ → σ'} {y u : σ'} {s : σ}
    (hkept : ∀ u s, part (replace u s) = s) :
    markBetween (fun u => trail (part u)) mark y (replace u s) =
      markBetween trail mark (part y) s := by
  show firstMark mark _ (List.drop _ (trail (part (replace u s)))) = _
  rw [hkept]
  rfl

/-- **Between two states** the trail only grew, and this is the first mark on what came on it. -/
structure Marks (trail : σ → List κ) (mark : List κ → κ → Option ε) (z s : σ) (first : Option ε) :
    Prop where
  grows : trail z <+: trail s
  between : markBetween trail mark z s = first

namespace Marks

variable {z s u : σ} {own : List κ} {first next : Option ε}

theorem of_added (h : trail s = trail z ++ own) :
    Marks trail mark z s (firstMark mark (trail z) own) := by
  refine ⟨⟨own, h.symm⟩, ?_⟩
  rw [markBetween, h, List.drop_left]

/-- Where nothing came on the trail, there is no mark. -/
theorem of_same (h : trail s = trail z) : Marks trail mark z s none := by
  have hown : trail s = trail z ++ [] := by rw [h, List.append_nil]
  exact of_added hown

theorem of_grows (h : trail z <+: trail s) : ∃ first, Marks trail mark z s first := ⟨_, h, rfl⟩

theorem trans (h : Marks trail mark z s first) (h' : Marks trail mark s u next) :
    Marks trail mark z u (first.or next) := by
  obtain ⟨own, hs⟩ := h.grows
  obtain ⟨more, hu⟩ := h'.grows
  have hzu : trail u = trail z ++ (own ++ more) := by
    rw [← hu, ← hs, List.append_assoc]
  obtain rfl := h.between.symm.trans (of_added hs.symm).between
  obtain rfl := h'.between.symm.trans (of_added hu.symm).between
  rw [← hs, ← firstMark_append]
  exact of_added hzu

theorem part {σ' : Type} {part : σ' → σ} {replace : σ' → σ → σ'} {y u : σ'}
    (hkept : ∀ u s, part (replace u s) = s) (h : Marks trail mark (part y) s first) :
    Marks (fun u => trail (part u)) mark y (replace u s) first := by
  refine ⟨?_, (markBetween_part hkept).trans h.between⟩
  show trail (part y) <+: trail (part (replace u s))
  rw [hkept]
  exact h.grows

/-- A mark stays the first one, whatever comes on the trail later. -/
theorem of_some {e : ε} (h : Marks trail mark z s (some e)) (hgrows : trail s <+: trail u) :
    Marks trail mark z u (some e) := by
  obtain ⟨next, hnext⟩ : ∃ next, Marks trail mark s u next := of_grows hgrows
  exact h.trans hnext

end Marks

namespace Activity

variable {R : σ → τ → Prop} {E : ε → Activity σ α → Prop} {z s u : σ} {t : τ} {ss us : List σ}
  {ts : List τ} {a : Activity σ α} {b : Activity τ α} {x : α} {off : Bool} {e : ε}

/-- **The first mark on what an activity adds** to the trail in its turns, begun in a state and
resumed in others. -/
def mark? (trail : σ → List κ) (mark : List κ → κ → Option ε) :
    (begun : σ) → Activity σ α → List σ → Option ε
  | z, a, [] => markBetween trail mark z a.state
  | z, a, s :: ss =>
    (markBetween trail mark z a.state).or ((a.next? s).bind fun b => b.mark? trail mark s ss)

/-- What was added without a mark before makes no difference. -/
theorem mark?_of_earlier (h : Marks trail mark z s none) (hgrows : trail s <+: trail a.state) :
    a.mark? trail mark z ss = a.mark? trail mark s ss := by
  obtain ⟨first, hfirst⟩ : ∃ first, Marks trail mark s a.state first := Marks.of_grows hgrows
  have hbetween : markBetween trail mark z a.state = markBetween trail mark s a.state := by
    rw [(h.trans hfirst).between, hfirst.between]
    rfl
  cases ss with
  | nil => exact hbetween
  | cons s' ss => rw [mark?, mark?, hbetween]

/-- A mark in the first turn is the first mark. -/
theorem mark?_of_some (h : markBetween trail mark z a.state = some e) :
    a.mark? trail mark z ss = some e := by
  cases ss with
  | nil => exact h
  | cons s ss =>
    rw [mark?, h]
    rfl

/-- Without a mark there is none in the first turn, and none in the others. -/
theorem mark?_cons_eq_none {a' : Activity σ α} (hnext : a.next? s = some a')
    (h : a.mark? trail mark z (s :: ss) = none) :
    a'.mark? trail mark s ss = none := by
  rw [mark?, hnext] at h
  exact (Option.or_eq_none_iff.mp h).2

@[simp] theorem mark?_map {f : α → β} :
    (a.map f).mark? trail mark z ss = a.mark? trail mark z ss := by
  induction ss generalizing a z with
  | nil => cases a <;> rfl
  | cons s ss ih =>
    cases a with
    | done u x => rfl
    | paused u resume => exact congrArg _ ih
    | waiting u callOff => exact congrArg _ ih

/-- What is added to a trail in a part of larger states. -/
theorem mark?_within {σ' : Type} {part : σ' → σ} {replace : σ' → σ → σ'} {y u : σ'} {ss : List σ'}
    (hkept : ∀ u s, part (replace u s) = s) :
    (a.within part replace u).mark? (fun u => trail (part u)) mark y ss =
      a.mark? trail mark (part y) (ss.map part) := by
  induction ss generalizing a y u with
  | nil =>
    rw [List.map_nil, mark?, mark?, state_within]
    exact markBetween_part hkept
  | cons s ss ih =>
    rw [List.map_cons, mark?, mark?, state_within, markBetween_part hkept, next?_within]
    cases a.next? (part s) with
    | none => rfl
    | some a' => exact congrArg _ ih

/-- Where no entry is ever marked, an activity adds no marked one. -/
theorem mark?_eq_none (hmark : ∀ before entry, mark before entry = none) :
    a.mark? trail mark z ss = none := by
  have hfirst : ∀ before own, firstMark mark before own = none := by
    intro before own
    induction own generalizing before with
    | nil => rfl
    | cons entry rest ih => rw [firstMark, hmark, Option.none_or, ih]
  induction ss generalizing a z with
  | nil => exact hfirst _ _
  | cons s ss ih =>
    rw [mark?, markBetween, hfirst, Option.none_or]
    cases a.next? s with
    | none => rfl
    | some b => exact ih

/-! ## §2 Likeness -/

/-- **Activities go alike up to a mark**, the first of them begun in a state, and `E` holds of a
mark and what is left of the first activity once it has added an entry with that mark. -/
inductive AlikeUntil (trail : σ → List κ) (mark : List κ → κ → Option ε) (R : σ → τ → Prop)
    (E : ε → Activity σ α → Prop) : σ → Activity σ α → Activity τ α → Prop
  | done {z s : σ} {t : τ} {x : α} :
      Marks trail mark z s none → R s t → AlikeUntil trail mark R E z (.done s x) (.done t x)
  | paused {z s : σ} {t : τ} {f : σ → Activity σ α} {g : τ → Activity τ α} :
      Marks trail mark z s none → R s t →
      (∀ u v, R u v → AlikeUntil trail mark R E u (f u) (g v)) →
      AlikeUntil trail mark R E z (.paused s f) (.paused t g)
  | waiting {z s : σ} {t : τ} {f : σ → Activity σ α} {g : τ → Activity τ α} :
      Marks trail mark z s none → R s t →
      (∀ u v, R u v → AlikeUntil trail mark R E u (f u) (g v)) →
      AlikeUntil trail mark R E z (.waiting s f) (.waiting t g)
  | marked {z : σ} {a : Activity σ α} {b : Activity τ α} {e : ε} :
      Marks trail mark z a.state (some e) → E e a → AlikeUntil trail mark R E z a b

namespace AlikeUntil

/-- What was added without a mark before makes no difference. -/
theorem of_earlier (h : AlikeUntil trail mark R E s a b) (hbefore : Marks trail mark z s none) :
    AlikeUntil trail mark R E z a b := by
  cases h with
  | done hmarks hst => exact .done (hbefore.trans hmarks) hst
  | paused hmarks hst hresume => exact .paused (hbefore.trans hmarks) hst hresume
  | waiting hmarks hst hcallOff => exact .waiting (hbefore.trans hmarks) hst hcallOff
  | marked hmarks hE => exact .marked (hbefore.trans hmarks) hE

theorem grows (h : AlikeUntil trail mark R E z a b) : trail z <+: trail a.state := by
  cases h with
  | done hmarks _ | paused hmarks _ _ | waiting hmarks _ _ | marked hmarks _ => exact hmarks.grows

/-! ## §3 Composition -/

/-- **Composition**: what goes on alike from alike ends goes alike. -/
theorem bind {E' : ε → Activity σ β → Prop} {f : σ → α → Activity σ β} {g : τ → α → Activity τ β}
    (h : AlikeUntil trail mark R E z a b)
    (hnext : ∀ s t x, R s t → AlikeUntil trail mark R E' s (f s x) (g t x))
    (hmarked : ∀ z e a b, Marks trail mark z a.state (some e) → E e a →
      AlikeUntil trail mark R E' z (a.bind f) b) :
    AlikeUntil trail mark R E' z (a.bind f) (b.bind g) := by
  induction h with
  | done hmarks hst => exact (hnext _ _ _ hst).of_earlier hmarks
  | paused hmarks hst _ ih => exact .paused hmarks hst ih
  | waiting hmarks hst _ ih => exact .waiting hmarks hst ih
  | marked hmarks hE => exact hmarked _ _ _ _ hmarks hE

theorem map {E' : ε → Activity σ β → Prop} {f : α → β} (h : AlikeUntil trail mark R E z a b)
    (hmarked : ∀ e a, E e a → E' e (a.map f)) :
    AlikeUntil trail mark R E' z (a.map f) (b.map f) := by
  induction h with
  | done hmarks hst => exact .done hmarks hst
  | paused hmarks hst _ ih => exact .paused hmarks hst ih
  | waiting hmarks hst _ ih => exact .waiting hmarks hst ih
  | @marked z a b e hmarks hE =>
    refine .marked ?_ (hmarked e a hE)
    cases a <;> exact hmarks

theorem later {f : σ → Activity σ α} {g : τ → Activity τ α} (hst : R s t)
    (h : ∀ s t, R s t → AlikeUntil trail mark R E s (f s) (g t)) :
    AlikeUntil trail mark R E s (later f s) (later g t) :=
  .paused (.of_same rfl) hst h

/-- **Limits**: with a limit activities go alike if what takes over does. -/
theorem limited {f : σ → Activity σ α} {g : τ → Activity τ α} (h : AlikeUntil trail mark R E z a b)
    (hexpired : ∀ s t, R s t → AlikeUntil trail mark R E s (f s) (g t))
    (hmarked : ∀ e a, E e a → E e (a.limited f)) :
    AlikeUntil trail mark R E z (a.limited f) (b.limited g) := by
  induction h with
  | done hmarks hst => exact .done hmarks hst
  | paused hmarks hst _ ih => exact .paused hmarks hst ih
  | waiting hmarks hst _ _ => exact .waiting hmarks hst hexpired
  | @marked z a b e hmarks hE =>
    refine .marked ?_ (hmarked e a hE)
    cases a <;> exact hmarks

/-- **Parts**: over a part of larger states activities go alike, if the larger states are alike
whatever alike parts are put into them. -/
theorem within {σ' τ' : Type} {S : σ' → τ' → Prop} {E' : ε → Activity σ' α → Prop} {part : σ' → σ}
    {replace : σ' → σ → σ'} {part' : τ' → τ} {replace' : τ' → τ → τ'}
    (hkept : ∀ u s, part (replace u s) = s) (hpart : ∀ u v, S u v → R (part u) (part' v))
    (hreplace : ∀ u v s t, S u v → R s t → S (replace u s) (replace' v t))
    (hmarked : ∀ e a u, E e a → E' e (a.within part replace u))
    {y u : σ'} {v : τ'} (h : AlikeUntil trail mark R E (part y) a b) (huv : S u v) :
    AlikeUntil (fun u => trail (part u)) mark S E' y (a.within part replace u)
      (b.within part' replace' v) := by
  generalize hy : part y = z at h
  induction h generalizing y u v with
  | done h hst => exact .done (.part hkept (hy ▸ h)) (hreplace _ _ _ _ huv hst)
  | paused h hst _ ih =>
    refine .paused (.part hkept (hy ▸ h)) (hreplace _ _ _ _ huv hst) ?_
    intro u' v' huv'
    exact ih _ _ (hpart u' v' huv') huv' rfl
  | waiting h hst _ ih =>
    refine .waiting (.part hkept (hy ▸ h)) (hreplace _ _ _ _ huv hst) ?_
    intro u' v' huv'
    exact ih _ _ (hpart u' v' huv') huv' rfl
  | @marked z a b e h hE =>
    refine .marked ?_ (hmarked e a u hE)
    rw [state_within]
    exact .part hkept (hy ▸ h)

/-- **Outside of a part**: an activity over a part of larger states goes alike if alike states have
the same part, and stay alike whatever is put into them; it adds nothing to a trail outside. -/
theorem within_outside {σ' τ' ρ : Type} {trail : σ' → List κ} {S : σ' → τ' → Prop}
    {E : ε → Activity σ' α → Prop} {part : σ' → ρ} {replace : σ' → ρ → σ'} {part' : τ' → ρ}
    {replace' : τ' → ρ → τ'} (htrail : ∀ u s, trail (replace u s) = trail u)
    (hpart : ∀ u v, S u v → part u = part' v)
    (hreplace : ∀ u v s, S u v → S (replace u s) (replace' v s)) {a : Activity ρ α}
    {u : σ'} {v : τ'} (huv : S u v) :
    AlikeUntil trail mark S E u (a.within part replace u) (a.within part' replace' v) := by
  induction a generalizing u v with
  | done s x => exact .done (.of_same (htrail u s)) (hreplace u v s huv)
  | paused s resume ih =>
    refine .paused (.of_same (htrail u s)) (hreplace u v s huv) ?_
    intro u' v' huv'
    rw [← hpart u' v' huv']
    exact ih _ huv'
  | waiting s callOff ih =>
    refine .waiting (.of_same (htrail u s)) (hreplace u v s huv) ?_
    intro u' v' huv'
    rw [← hpart u' v' huv']
    exact ih _ huv'

end AlikeUntil

/-! ## §4 What goes alike -/

/-- **A place for an activity** within a larger one: what is put there suspends itself
with it, and the larger one adds to the trail that it finds. Waits need to be called off
only if `off` says so. -/
structure Frame (trail : σ → List κ) (off : Bool) (C : Activity σ α → Activity σ β) : Prop where
  paused : ∀ s f, C (.paused s f) = .paused s fun t => C (f t)
  waiting : off = true → ∀ s f, C (.waiting s f) = .waiting s fun t => C (f t)
  grows : ∀ a, trail a.state <+: trail (C a).state

theorem Frame.id : Frame trail off (fun a : Activity σ α => a) :=
  ⟨fun _ _ => rfl, fun _ _ _ => rfl, fun _ => List.prefix_rfl⟩

/-- What follows an activity makes a place for it. -/
theorem Frame.bind {γ : Type} {C : Activity σ β → Activity σ γ} {f : σ → α → Activity σ β}
    (hC : Frame trail off C) (hgrows : ∀ s x, trail s <+: trail (f s x).state) :
    Frame trail off (fun a => C (a.bind f)) where
  paused s resume := hC.paused s _
  waiting hoff s callOff := hC.waiting hoff s _
  grows a := by
    refine List.IsPrefix.trans ?_ (hC.grows _)
    cases a with
    | done s x => exact hgrows s x
    | paused s resume | waiting s callOff => exact List.prefix_rfl

section Frame

variable {C : Activity σ α → Activity σ β}

/-- In a place where no marked entry is added, none was added by what is put there. -/
theorem Frame.not_marked (hC : Frame trail off C) (h : (C a).mark? trail mark z ss = none) :
    ¬ Marks trail mark z a.state (some e) := by
  intro hmarks
  rw [mark?_of_some (hmarks.of_some (hC.grows a)).between] at h
  cases h

/-- Where no marked entry is added, none is added by what follows the end of what is put there. -/
theorem Frame.quiet_later (hC : Frame trail off C) (hmarks : Marks trail mark z s none)
    (h : (C (.done s x)).mark? trail mark z us = none) :
    (C (.done s x)).mark? trail mark s us = none := by
  rw [← mark?_of_earlier hmarks (hC.grows (.done s x))]
  exact h

end Frame

namespace AlikeUntil

variable {C : Activity σ α → Activity σ β}

/-- **Ends**: in a place where no marked entry is added, the other activity ends as the first one
does, in an alike state; and no marked entry is added there later. -/
theorem ends (hC : Frame trail off C) (h : AlikeUntil trail mark R E z a b)
    (hts : List.Forall₂ R ss ts) (hends : a.Ends off ss s x)
    (hquiet : (C a).mark? trail mark z (ss ++ us) = none) :
    ∃ t, b.Ends off ts t x ∧ R s t ∧ (C (.done s x)).mark? trail mark s us = none := by
  -- The induction is on how the first activity ends. The place goes along with it, as it suspends
  -- itself where the activity does.
  induction hends generalizing z b ts with
  | done s x =>
    cases h with
    | done hmarks hst =>
      cases hts
      exact ⟨_, .done _ _, hst, hC.quiet_later hmarks hquiet⟩
    | marked hmarks _ => exact absurd hmarks (hC.not_marked hquiet)
  | resumed _ ih =>
    cases h with
    | paused _ _ hresume =>
      cases hts with
      | cons hst hrest =>
        rw [hC.paused] at hquiet
        obtain ⟨t, hends, hrest⟩ := ih (hresume _ _ hst) hrest (mark?_cons_eq_none rfl hquiet)
        exact ⟨t, .resumed hends, hrest⟩
    | marked hmarks _ => exact absurd hmarks (hC.not_marked hquiet)
  | calledOff hoff _ ih =>
    cases h with
    | waiting _ _ hcallOff =>
      cases hts with
      | cons hst hrest =>
        rw [hC.waiting hoff] at hquiet
        obtain ⟨t, hends, hrest⟩ := ih (hcallOff _ _ hst) hrest (mark?_cons_eq_none rfl hquiet)
        exact ⟨t, .calledOff hoff hends, hrest⟩
    | marked hmarks _ => exact absurd hmarks (hC.not_marked hquiet)

/-- **Ends, the other way round**: in a place where no marked entry is added, the first activity
ends as the other one does, in an alike state; and no marked entry is added there later. -/
theorem ends_of_other (hC : Frame trail off C) (h : AlikeUntil trail mark R E z a b)
    (hts : List.Forall₂ R ss ts) (hends : b.Ends off ts t x)
    (hquiet : (C a).mark? trail mark z (ss ++ us) = none) :
    ∃ s, a.Ends off ss s x ∧ R s t ∧ (C (.done s x)).mark? trail mark s us = none := by
  induction hends generalizing z a ss with
  | done t x =>
    cases h with
    | done hmarks hst =>
      cases hts
      exact ⟨_, .done _ _, hst, hC.quiet_later hmarks hquiet⟩
    | marked hmarks _ => exact absurd hmarks (hC.not_marked hquiet)
  | resumed _ ih =>
    cases h with
    | paused _ _ hresume =>
      cases hts with
      | cons hst hrest =>
        rw [hC.paused] at hquiet
        obtain ⟨s, hends, hrest⟩ := ih (hresume _ _ hst) hrest (mark?_cons_eq_none rfl hquiet)
        exact ⟨s, .resumed hends, hrest⟩
    | marked hmarks _ => exact absurd hmarks (hC.not_marked hquiet)
  | calledOff hoff _ ih =>
    cases h with
    | waiting _ _ hcallOff =>
      cases hts with
      | cons hst hrest =>
        rw [hC.waiting hoff] at hquiet
        obtain ⟨s, hends, hrest⟩ := ih (hcallOff _ _ hst) hrest (mark?_cons_eq_none rfl hquiet)
        exact ⟨s, .calledOff hoff hends, hrest⟩
    | marked hmarks _ => exact absurd hmarks (hC.not_marked hquiet)

/-- **As long as no marked entry is added**, activities that go alike have the same results. -/
theorem ends_iff (h : AlikeUntil trail mark R E z a b) (hts : List.Forall₂ R ss ts)
    (hquiet : a.mark? trail mark z ss = none) :
    (∃ s, a.Ends off ss s x) ↔ ∃ t, b.Ends off ts t x := by
  rw [← List.append_nil ss] at hquiet
  constructor
  · rintro ⟨s, hends⟩
    obtain ⟨t, hends', -⟩ := h.ends .id hts hends hquiet
    exact ⟨t, hends'⟩
  · rintro ⟨t, hends⟩
    obtain ⟨s, hends', -⟩ := h.ends_of_other .id hts hends hquiet
    exact ⟨s, hends'⟩

/-- As long as no marked entry is added, the states are alike, and so are the turns. -/
theorem turn (h : AlikeUntil trail mark R E z a b)
    (hquiet : markBetween trail mark z a.state = none) :
    R a.state b.state ∧ ∀ s t, R s t →
      a.next? s = none ∧ b.next? t = none ∨
      ∃ a' b', a.next? s = some a' ∧ b.next? t = some b' ∧ AlikeUntil trail mark R E s a' b' := by
  cases h with
  | done _ hst => exact ⟨hst, fun _ _ _ => .inl ⟨rfl, rfl⟩⟩
  | paused _ hst hresume =>
    exact ⟨hst, fun s t hst => .inr ⟨_, _, rfl, rfl, hresume s t hst⟩⟩
  | waiting _ hst hcallOff =>
    exact ⟨hst, fun s t hst => .inr ⟨_, _, rfl, rfl, hcallOff s t hst⟩⟩
  | marked hmarks _ => cases hquiet.symm.trans hmarks.between

/-- **As long as no marked entry is added**, activities that go alike add the same to a trail that
alike states have in common. -/
theorem adds_iff {trail' : τ → List κ} (htrail : ∀ s t, R s t → trail s = trail' t)
    {calls : List κ} (h : AlikeUntil trail mark R E z a b) (hzt : trail z = trail' t)
    (hts : List.Forall₂ R ss ts) (hquiet : a.mark? trail mark z ss = none) :
    a.Adds trail z ss calls ↔ b.Adds trail' t ts calls := by
  induction hts generalizing z t a b calls with
  | nil =>
    obtain ⟨hstate, -⟩ := h.turn hquiet
    rw [adds_nil_iff, adds_nil_iff, htrail _ _ hstate, hzt]
  | @cons s t' ss ts hst hts ih =>
    -- The first turns add the same, since the trails agree before and after them.
    have hnone : markBetween trail mark z a.state = none := (Option.or_eq_none_iff.mp hquiet).1
    obtain ⟨hstate, hturn⟩ := h.turn hnone
    rw [adds_cons_iff, adds_cons_iff, htrail _ _ hstate, hzt]
    rcases hturn s t' hst with ⟨ha, hb⟩ | ⟨a', b', ha, hb, halike⟩
    · simp [ha, hb]
    · have hrest : ∀ more, a'.Adds trail s ss more ↔ b'.Adds trail' t' ts more := fun more =>
        ih halike (htrail s t' hst) (mark?_cons_eq_none ha hquiet)
      simp [ha, hb, hrest]

/-- **Once a marked entry is added**, what is known holds of what is left of the activity. -/
theorem exists_of_mark (h : AlikeUntil trail mark R E z a b) (hts : List.Forall₂ R ss ts)
    (hmark : a.mark? trail mark z ss = some e) :
    ∃ before after, ss = before ++ after ∧ a.HasTurns before ∧ E e (a.after before) := by
  -- The turn in which the mark comes is the one after which the activities need not be alike.
  induction hts generalizing z a b with
  | nil =>
    cases h with
    | done hmarks _ | paused hmarks _ _ | waiting hmarks _ _ =>
      cases hmarks.between.symm.trans hmark
    | marked hmarks hE =>
      obtain rfl := Option.some.inj (hmarks.between.symm.trans hmark)
      exact ⟨[], [], rfl, trivial, hE⟩
  | @cons s t ss ts hst _ ih =>
    cases hbetween : markBetween trail mark z a.state with
    | some e' =>
      obtain rfl := Option.some.inj ((mark?_of_some hbetween).symm.trans hmark)
      cases h with
      | done hmarks _ | paused hmarks _ _ | waiting hmarks _ _ =>
        cases hmarks.between.symm.trans hbetween
      | marked hmarks hE =>
        obtain rfl := Option.some.inj (hmarks.between.symm.trans hbetween)
        exact ⟨[], s :: ss, rfl, trivial, hE⟩
    | none =>
      rw [mark?, hbetween, Option.none_or] at hmark
      rcases (h.turn hbetween).2 s t hst with ⟨hnext, -⟩ | ⟨a', b', hnext, -, halike⟩
      · rw [hnext] at hmark
        cases hmark
      · rw [hnext] at hmark
        obtain ⟨before, after, rfl, hturns, hE⟩ := ih halike hmark
        refine ⟨s :: before, after, rfl, ⟨a', hnext, hturns⟩, ?_⟩
        show E e (((a.next? s).getD a).after before)
        rw [hnext]
        exact hE

end AlikeUntil

end Activity

end Switchyard
