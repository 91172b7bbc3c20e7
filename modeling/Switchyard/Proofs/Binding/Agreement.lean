import Switchyard.Proofs.Value.Likeness

/-!
# Evaluation of the same data

What expressions find in data depends on the data alone and not on where it is kept. So if two
contexts give the same data to every expression of a binding, the binding resolves to the same data
in both, or it fails with the same error in both.

Main statements: paths find the same in the same data (`walk_agrees`), sums of the same scalars and
of data of the same kinds are the same (`add_eq_add`), and bindings resolve to the same in contexts
that agree (`resolve_agrees`).
-/

namespace Switchyard

/-! ## §1 Results that agree -/

/-- **Results that agree**: related values, or the same error. -/
inductive Agree {ε α β : Type} (r : α → β → Prop) : Except ε α → Except ε β → Prop
  | ok {a : α} {b : β} : r a b → Agree r (.ok a) (.ok b)
  | error (e : ε) : Agree r (.error e) (.error e)

namespace Agree

variable {ε α β γ δ : Type} {r : α → β → Prop} {s : γ → δ → Prop} {x : Except ε α} {y : Except ε β}
  {f : α → Except ε γ} {g : β → Except ε δ}

/-- Computations in a row agree if the first ones do, and the second ones on all that these give. -/
theorem bind (h : Agree r x y) (hf : ∀ a b, r a b → Agree s (f a) (g b)) :
    Agree s (x >>= f) (y >>= g) := by
  cases h with
  | ok hab => exact hf _ _ hab
  | error e => exact .error e

theorem imp {r' : α → β → Prop} (h : Agree r x y) (himp : ∀ a b, r a b → r' a b) :
    Agree r' x y := by
  cases h with
  | ok hab => exact .ok (himp _ _ hab)
  | error e => exact .error e

/-- Equal results agree if what they give is related to itself. -/
theorem of_eq {r : α → α → Prop} {y : Except ε α} (heq : x = y) (h : ∀ a, x = .ok a → r a a) :
    Agree r x y := by
  subst heq
  cases x with
  | ok a => exact .ok (h a rfl)
  | error e => exact .error e

end Agree

/-! ## §2 Looking up -/

/-- Lists that are related one by one have related members at each place. -/
theorem rel_getElem? {α β : Type} {r : α → β → Prop} {as : List α} {bs : List β}
    (h : List.Forall₂ r as bs) (i : Nat) : Option.Rel r as[i]? bs[i]? := by
  induction h generalizing i with
  | nil => exact .none
  | cons hab _ ih =>
    cases i with
    | zero => exact .some hab
    | succ i => exact ih i

/-- Entries that correspond have related values under each key. -/
theorem Entries.Correspond.get? {r : Value → Value → Prop} {es fs : Entries}
    (h : es.Correspond r fs) (key : Scalar) : Option.Rel r (es.get? key) (fs.get? key) := by
  induction h with
  | nil => exact .none
  | @cons p q es fs hpq _ ih =>
    have hkeys : q.1.same key = p.1.same key := by rw [hpq.1]
    simp only [Entries.get?, List.find?_cons, hkeys] at ih ⊢
    cases p.1.same key with
    | true => exact .some hpq.2
    | false => exact ih

namespace Expression

open Store (Pairing)

variable {r : Nat → Nat → Prop} {σ τ : Store} {v w v' w' : Value}

/-- **A segment** leads to the same in the same data, or nowhere for the same reason. -/
theorem follow_agrees (h : Pairing σ τ r) (hvw : v.Matches r w) (walked : List Segment)
    (segment : Segment) :
    Agree (Value.Matches r) (follow σ walked segment v) (follow τ walked segment w) := by
  have hshape := h.shape hvw
  unfold follow
  generalize σ.shape v = shown at hshape
  generalize τ.shape w = shown' at hshape
  cases hshape with
  | scalar s => exact .error _
  | @mapping es fs hentries =>
    have hfound : Option.Rel (Value.Matches r) (es.field? segment.key) (fs.field? segment.key) :=
      hentries.get? _
    dsimp only
    generalize es.field? segment.key = x at hfound ⊢
    generalize fs.field? segment.key = y at hfound ⊢
    cases hfound with
    | some hab => exact .ok hab
    | none => exact .error _
  | @sequence vs ws hitems =>
    cases segment.place? with
    | none => exact .error _
    | some n =>
      -- As many items on both sides, so a place counts from the back to the same item.
      have hfound := fun i : Nat => rel_getElem? hitems i
      simp only [hitems.length_eq]
      split_ifs
      · specialize hfound n.toNat
        generalize vs[n.toNat]? = x at hfound ⊢
        generalize ws[n.toNat]? = y at hfound ⊢
        cases hfound with
        | some hab => exact .ok hab
        | none => exact .error _
      · specialize hfound (ws.length - n.natAbs)
        generalize vs[ws.length - n.natAbs]? = x at hfound ⊢
        generalize ws[ws.length - n.natAbs]? = y at hfound ⊢
        cases hfound with
        | some hab => exact .ok hab
        | none => exact .error _
      · exact .error _

/-- **Paths** find the same in the same data. -/
theorem walk_agrees (h : Pairing σ τ r) (hvw : v.Matches r w) (walked segments : List Segment) :
    Agree (Value.Matches r) (walk σ walked segments v) (walk τ walked segments w) := by
  induction segments generalizing walked v w with
  | nil => exact .ok hvw
  | cons segment rest ih =>
    exact (follow_agrees h hvw _ _).bind fun a b hab => ih hab _

end Expression

/-! ## §3 Sums -/

/-- The scalar that a value is. -/
def Value.scalar? : Value → Option Scalar
  | .atom s => some s
  | _ => none

theorem Value.scalar?_eq_some_iff {v : Value} {s : Scalar} : v.scalar? = some s ↔ v = .atom s := by
  cases v <;> simp [Value.scalar?]

/-- The same data is the same scalar, or none on both sides. -/
theorem Value.Matches.scalar?_eq {r : Nat → Nat → Prop} {v w : Value} (h : v.Matches r w) :
    v.scalar? = w.scalar? := by
  cases h <;> rfl

namespace Expression

variable {σ τ : Store} {v w v' w' : Value}

theorem asPhrase?_of_no_scalar (h : v.scalar? = none) : asPhrase? v = none := by
  cases v with
  | atom s => cases h
  | list _ | tuple _ | map _ | shared _ => rfl

/-- What is no scalar has no sum. -/
theorem add_of_no_scalar (h : v.scalar? = none ∨ v'.scalar? = none) :
    add σ v v' = .error (.mismatch (v.kindName σ) (v'.kindName σ)) := by
  have hphrase : asPhrase? v = none ∨ asPhrase? v' = none :=
    h.imp asPhrase?_of_no_scalar asPhrase?_of_no_scalar
  unfold add
  split_ifs
  · split
    · rename_i hleft hright
      rcases hphrase with hnone | hnone
      · cases hleft.symm.trans hnone
      · cases hright.symm.trans hnone
    · rfl
  · split
    -- Wherever both are numbers, both are scalars.
    all_goals first | (rcases h with h | h <;> cases h) | rfl

/-- **Sums** of the same scalars and of data of the same kinds are the same. -/
theorem add_eq_add (hleft : v.scalar? = w.scalar?) (hright : v'.scalar? = w'.scalar?)
    (hkind : v.kindName σ = w.kindName τ) (hkind' : v'.kindName σ = w'.kindName τ) :
    add σ v v' = add τ w w' := by
  cases hv : v.scalar? with
  | none =>
    rw [add_of_no_scalar (.inl hv), add_of_no_scalar (.inl (hleft.symm.trans hv)), hkind, hkind']
  | some s =>
    cases hv' : v'.scalar? with
    | none =>
      rw [add_of_no_scalar (.inr hv'), add_of_no_scalar (.inr (hright.symm.trans hv')),
        hkind, hkind']
    | some s' =>
      -- Two scalars on both sides: only the names of their kinds could come from the store.
      obtain rfl := Value.scalar?_eq_some_iff.mp hv
      obtain rfl := Value.scalar?_eq_some_iff.mp hv'
      obtain rfl := Value.scalar?_eq_some_iff.mp (hleft.symm.trans hv)
      obtain rfl := Value.scalar?_eq_some_iff.mp (hright.symm.trans hv')
      unfold add
      simp only [hkind, hkind']

end Expression

/-! ## §4 Data laid out -/

namespace Store

mutual

/-- **Plain data laid out** in two stores is the same data, in containers that are new in both. -/
theorem layOutValue_grows :
    ∀ {v : Value} {σ τ : Store} {r : Nat → Nat → Prop}, v.Within 0 → Pairing σ τ r →
    ∃ r', GrowAlike σ τ r (layOutValue v σ).2 (layOutValue v τ).2 r' ∧
      (layOutValue v σ).1.Matches r' (layOutValue v τ).1
  | .atom s, _, _, r, _, hr => ⟨r, .refl hr, .atom s⟩
  | .shared address, _, _, _, h, _ => by
    cases h with
    | shared hlt => exact absurd hlt (Nat.not_lt_zero _)
  | .tuple items, _, _, _, h, hr => by
    cases h with
    | tuple hitems =>
      obtain ⟨r', hgrown, hsame⟩ := layOutItems_grows hitems hr
      exact ⟨r', hgrown, Value.matches_tuple_iff.mpr hsame⟩
  | .list items, _, _, _, h, hr => by
    cases h with
    | list hitems =>
      obtain ⟨r', hgrown, hsame⟩ := layOutItems_grows hitems hr
      exact ⟨_, hgrown.trans (.alloc hgrown.pairing (.list hsame)), .shared (.inr ⟨rfl, rfl⟩)⟩
  | .map entries, _, _, _, h, hr => by
    cases h with
    | map hentries =>
      obtain ⟨r', hgrown, hsame⟩ := layOutEntries_grows hentries hr
      exact ⟨_, hgrown.trans (.alloc hgrown.pairing (.map hsame)), .shared (.inr ⟨rfl, rfl⟩)⟩

theorem layOutItems_grows :
    ∀ {items : List Value} {σ τ : Store} {r : Nat → Nat → Prop}, (∀ v ∈ items, v.Within 0) →
    Pairing σ τ r →
    ∃ r', GrowAlike σ τ r (layOutItems items σ).2 (layOutItems items τ).2 r' ∧
      List.Forall₂ (Value.Matches r') (layOutItems items σ).1 (layOutItems items τ).1
  | [], _, _, r, _, hr => ⟨r, .refl hr, .nil⟩
  | v :: rest, _, _, _, h, hr => by
    obtain ⟨hv, hrest⟩ := List.forall_mem_cons.mp h
    obtain ⟨r', hfirst, hsame⟩ := layOutValue_grows hv hr
    obtain ⟨r'', hothers, hsames⟩ := layOutItems_grows hrest hfirst.pairing
    exact ⟨r'', hfirst.trans hothers, .cons (hothers.matches_mono hsame) hsames⟩

theorem layOutEntries_grows : ∀ {entries : Entries} {σ τ : Store} {r : Nat → Nat → Prop},
    (∀ entry ∈ entries, entry.2.Within 0) → Pairing σ τ r →
    ∃ r', GrowAlike σ τ r (layOutEntries entries σ).2 (layOutEntries entries τ).2 r' ∧
      Entries.Correspond (Value.Matches r') (layOutEntries entries σ).1 (layOutEntries entries τ).1
  | [], _, _, r, _, hr => ⟨r, .refl hr, .nil⟩
  | (_, v) :: rest, _, _, _, h, hr => by
    obtain ⟨hv, hrest⟩ := List.forall_mem_cons.mp h
    obtain ⟨r', hfirst, hsame⟩ := layOutValue_grows hv hr
    obtain ⟨r'', hothers, hsames⟩ := layOutEntries_grows hrest hfirst.pairing
    exact ⟨r'', hfirst.trans hothers, .cons ⟨rfl, hothers.matches_mono hsame⟩ hsames⟩

end

end Store

/-! ## §5 Resolving -/

open Store (GrowAlike)

/-- **Contexts agree** on some expressions: these give the same in both, also when the
stores have grown alike. -/
def ContextsAgree (p : Expression → Prop) (σ : Store) (context : Value) (τ : Store)
    (context' : Value) (r : Nat → Nat → Prop) : Prop :=
  ∀ {σ' τ' r' e}, GrowAlike σ τ r σ' τ' r' → p e →
    Agree (Value.Matches r') (e.evaluate σ' context) (e.evaluate τ' context')

theorem ContextsAgree.of_grown {p : Expression → Prop} {σ σ' τ τ' : Store}
    {context context' : Value} {r r' : Nat → Nat → Prop}
    (h : ContextsAgree p σ context τ context' r) (hgrown : GrowAlike σ τ r σ' τ' r') :
    ContextsAgree p σ' context τ' context' r' :=
  fun hmore => h (hgrown.trans hmore)

namespace Binding

/-- A binding made of plain data and of expressions of some sort. -/
inductive MadeOf (p : Expression → Prop) : Binding → Prop
  | literal {value : Value} : value.Within 0 → MadeOf p (.literal value)
  | expression {e : Expression} : p e → MadeOf p (.expression e)
  | list {items : List Binding} : (∀ b ∈ items, MadeOf p b) → MadeOf p (.list items)
  | map {entries : List (String × Binding)} :
      (∀ entry ∈ entries, MadeOf p entry.2) → MadeOf p (.map entries)

/-- **Two results are the same** that two stores with a pairing have come to: the stores have grown
alike, and what was resolved is related by the pairing that has grown with them. -/
def ComeAlike {α : Type} (s : (Nat → Nat → Prop) → α → α → Prop) (σ τ : Store)
    (r : Nat → Nat → Prop) (x y : α × Store) : Prop :=
  ∃ r', GrowAlike σ τ r x.2 y.2 r' ∧ s r' x.1 y.1

variable {p : Expression → Prop} {context context' : Value}

mutual

/-- **Bindings resolve to the same** in contexts that agree on their expressions. -/
theorem resolve_agrees :
    ∀ {b : Binding} {σ τ : Store} {r : Nat → Nat → Prop}, b.MadeOf p → Store.Pairing σ τ r →
    ContextsAgree p σ context τ context' r →
    Agree (ComeAlike Value.Matches σ τ r) (resolve context b σ) (resolve context' b τ)
  | .literal value, _, _, _, h, hr, _ => by
    cases h with
    | literal hvalue => exact .ok (Store.layOutValue_grows hvalue hr)
  | .expression e, _, _, r, h, hr, hagree => by
    cases h with
    | expression he => exact (hagree (.refl hr) he).bind fun v w hvw => .ok ⟨r, .refl hr, hvw⟩
  | .list items, _, _, _, h, hr, hagree => by
    cases h with
    | list hitems =>
      refine (resolveItems_agrees hitems hr hagree).bind fun x y hxy => .ok ?_
      obtain ⟨r', hgrown, hsame⟩ := hxy
      exact ⟨_, hgrown.trans (.alloc hgrown.pairing (.list hsame)), .shared (.inr ⟨rfl, rfl⟩)⟩
  | .map entries, _, _, _, h, hr, hagree => by
    cases h with
    | map hentries =>
      refine (resolveEntries_agrees hentries hr hagree).bind fun x y hxy => .ok ?_
      obtain ⟨r', hgrown, hsame⟩ := hxy
      exact ⟨_, hgrown.trans (.alloc hgrown.pairing (.map hsame.ofPairs)),
        .shared (.inr ⟨rfl, rfl⟩)⟩

theorem resolveItems_agrees : ∀ {items : List Binding} {σ τ : Store} {r : Nat → Nat → Prop},
    (∀ b ∈ items, b.MadeOf p) → Store.Pairing σ τ r → ContextsAgree p σ context τ context' r →
    Agree (ComeAlike (fun r => List.Forall₂ (Value.Matches r)) σ τ r) (resolveItems context items σ)
      (resolveItems context' items τ)
  | [], _, _, r, _, hr, _ => .ok ⟨r, .refl hr, .nil⟩
  | b :: rest, _, _, _, h, hr, hagree => by
    obtain ⟨hb, hrest⟩ := List.forall_mem_cons.mp h
    refine (resolve_agrees hb hr hagree).bind fun x y hxy => ?_
    obtain ⟨r', hfirst, hsame⟩ := hxy
    refine (resolveItems_agrees hrest hfirst.pairing (hagree.of_grown hfirst)).bind
      fun x' y' hxy' => .ok ?_
    obtain ⟨r'', hothers, hsames⟩ := hxy'
    exact ⟨r'', hfirst.trans hothers, .cons (hothers.matches_mono hsame) hsames⟩

theorem resolveEntries_agrees :
    ∀ {entries : List (String × Binding)} {σ τ : Store} {r : Nat → Nat → Prop},
    (∀ entry ∈ entries, entry.2.MadeOf p) → Store.Pairing σ τ r →
    ContextsAgree p σ context τ context' r →
    Agree (ComeAlike (fun r => Entries.Correspond (Value.Matches r)) σ τ r)
      (resolveEntries context entries σ) (resolveEntries context' entries τ)
  | [], _, _, r, _, hr, _ => .ok ⟨r, .refl hr, .nil⟩
  | (_, b) :: rest, _, _, _, h, hr, hagree => by
    obtain ⟨hb, hrest⟩ := List.forall_mem_cons.mp h
    refine (resolve_agrees hb hr hagree).bind fun x y hxy => ?_
    obtain ⟨r', hfirst, hsame⟩ := hxy
    refine (resolveEntries_agrees hrest hfirst.pairing (hagree.of_grown hfirst)).bind
      fun x' y' hxy' => .ok ?_
    obtain ⟨r'', hothers, hsames⟩ := hxy'
    exact ⟨r'', hfirst.trans hothers, .cons ⟨rfl, hothers.matches_mono hsame⟩ hsames⟩

end

end Binding

end Switchyard
