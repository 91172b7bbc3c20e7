import Switchyard.Proofs.Value.Likeness

/-!
# Changes in place

Two stores change alike if the same happens in both, up to a pairing of their containers: paired
containers may be changed in place as long as they hold the same afterwards, new containers may be
paired, and whatever is paired with nothing stays as it was.

Main statements: changes alike follow one another (`ChangeAlike.trans`), two paired containers can
be changed in place (`ChangeAlike.set`), and what lies below all pairs stays as it was
(`ChangeAlike.extends_first`).
-/

namespace Switchyard

open Store (Pairing GrowAlike)

/-! ## §1 The same data from the other side -/

/-- The same relation, seen from the other side. -/
def Turned (r : Nat → Nat → Prop) (b a : Nat) : Prop := r a b

namespace Entries.Correspond

variable {p q : Value → Value → Prop} {es fs : Entries}

theorem flip (h : es.Correspond p fs) : fs.Correspond (fun w v => p v w) es :=
  (List.Forall₂.flip h).imp fun _ _ hpq => ⟨hpq.1.symm, hpq.2⟩

theorem imp (h : es.Correspond p fs) (himp : ∀ v w, p v w → q v w) : es.Correspond q fs :=
  List.Forall₂.imp (fun _ _ hpq => ⟨hpq.1, himp _ _ hpq.2⟩) h

end Entries.Correspond

namespace Value

variable {r : Nat → Nat → Prop} {v w : Value}

/-- The same data seen from the other side. -/
theorem Matches.flip (h : v.Matches r w) : w.Matches (Turned r) v := by
  induction h with
  | atom s => exact .atom s
  | list hlength _ ih =>
    exact matches_list_iff.mpr (List.forall₂_iff_zip.mpr ⟨hlength, fun hpair => ih _ hpair⟩).flip
  | tuple hlength _ ih =>
    exact matches_tuple_iff.mpr (List.forall₂_iff_zip.mpr ⟨hlength, fun hpair => ih _ hpair⟩).flip
  | map hlength hkeys _ ih =>
    have hentries :=
      List.forall₂_iff_zip.mpr ⟨hlength, fun hpair => And.intro (hkeys _ hpair) (ih _ hpair)⟩
    exact matches_map_iff.mpr (hentries.flip.imp fun _ _ hpq => ⟨hpq.1.symm, hpq.2⟩)
  | shared hab => exact .shared hab

end Value

namespace Cell

variable {r : Nat → Nat → Prop} {c d : Cell}

theorem Matches.flip (h : c.Matches r d) : d.Matches (Turned r) c := by
  cases h with
  | list h => exact .list (h.flip.imp fun _ _ hvw => hvw.flip)
  | map h => exact .map (h.flip.imp fun _ _ hvw => hvw.flip)
  | view h => exact .view (h.flip.imp fun _ _ hvw => hvw.flip)

end Cell

namespace Store

variable {r r' : Nat → Nat → Prop} {σ σ' σ'' τ τ' τ'' base : Store} {v w : Value}
  {a b : Nat} {c d : Cell}

namespace Pairing

/-- **A pairing seen from the other side.** -/
theorem flip (h : Pairing σ τ r) : Pairing τ σ (Turned r) where
  cells hab := by
    obtain ⟨c, d, hc, hd, hmatches⟩ := h.cells hab
    exact ⟨d, c, hd, hc, hmatches.flip⟩
  right hab hab' := h.left hab hab'
  left hab hab' := h.right hab hab'

end Pairing

/-! ## §2 Changes alike -/

/-- **Two stores have changed alike**: a pairing has grown with them, new pairs are pairs of
new containers, and what is paired with nothing is as it was. Paired containers may have
been changed in place. -/
structure ChangeAlike (σ τ : Store) (r : Nat → Nat → Prop) (σ' τ' : Store)
    (r' : Nat → Nat → Prop) : Prop where
  first : ∀ a c, (∀ b, ¬ r a b) → σ.cell? a = some c → σ'.cell? a = some c
  second : ∀ b d, (∀ a, ¬ r a b) → τ.cell? b = some d → τ'.cell? b = some d
  pairing : Pairing σ' τ' r'
  keeps : ∀ {a b}, r a b → r' a b
  fresh : ∀ {a b}, r' a b → r a b ∨ σ.cells.size ≤ a ∧ τ.cells.size ≤ b

namespace ChangeAlike

theorem refl (h : Pairing σ τ r) : ChangeAlike σ τ r σ τ r where
  first _ _ _ hc := hc
  second _ _ _ hd := hd
  pairing := h
  keeps := id
  fresh := .inl

/-- Stores that grow alike change alike. -/
theorem of_grown (h : GrowAlike σ τ r σ' τ' r') : ChangeAlike σ τ r σ' τ' r' where
  first a c _ hc := h.first a c hc
  second b d _ hd := h.second b d hd
  pairing := h.pairing
  keeps := h.keeps
  fresh := h.fresh

theorem flip (h : ChangeAlike σ τ r σ' τ' r') : ChangeAlike τ σ (Turned r) τ' σ' (Turned r') where
  first := h.second
  second := h.first
  pairing := h.pairing.flip
  keeps hab := h.keeps hab
  fresh hab := (h.fresh hab).imp_right And.symm

/-- No container gets lost. -/
theorem size_le (h : ChangeAlike σ τ r σ' τ' r') : σ.cells.size ≤ σ'.cells.size := by
  by_contra hlt
  -- Else there would be a container in the first store at the end of the second one.
  obtain ⟨c, hc⟩ : ∃ c, σ.cell? σ'.cells.size = some c := cell?_of_lt_size (by omega)
  have hstays : ∃ c, σ'.cell? σ'.cells.size = some c := by
    by_cases hpaired : ∃ b, r σ'.cells.size b
    · obtain ⟨b, hab⟩ := hpaired
      obtain ⟨c', -, hc', -⟩ := h.pairing.cells (h.keeps hab)
      exact ⟨c', hc'⟩
    · exact ⟨c, h.first _ _ (not_exists.mp hpaired) hc⟩
  obtain ⟨c', hc'⟩ := hstays
  exact absurd (lt_size_of_cell? hc') (Nat.lt_irrefl _)

/-- **Changes one after the other.** -/
theorem trans {r'' : Nat → Nat → Prop} (h : ChangeAlike σ τ r σ' τ' r')
    (h' : ChangeAlike σ' τ' r' σ'' τ'' r'') : ChangeAlike σ τ r σ'' τ'' r'' where
  first a c hunpaired hc := by
    refine h'.first a c (fun b hab => ?_) (h.first a c hunpaired hc)
    -- A container that was there before is in no new pair.
    rcases h.fresh hab with hold | ⟨hle, -⟩
    · exact hunpaired b hold
    · exact absurd (lt_size_of_cell? hc) (Nat.not_lt_of_le hle)
  second b d hunpaired hd := by
    refine h'.second b d (fun a hab => ?_) (h.second b d hunpaired hd)
    rcases h.fresh hab with hold | ⟨-, hle⟩
    · exact hunpaired a hold
    · exact absurd (lt_size_of_cell? hd) (Nat.not_lt_of_le hle)
  pairing := h'.pairing
  keeps hab := h'.keeps (h.keeps hab)
  fresh hab := by
    rcases h'.fresh hab with hold | ⟨hle, hle'⟩
    · exact h.fresh hold
    · exact .inr ⟨Nat.le_trans h.size_le hle, Nat.le_trans h.flip.size_le hle'⟩

/-- Data that is the same stays the same. -/
theorem matches_mono (h : ChangeAlike σ τ r σ' τ' r') (hvw : v.Matches r w) : v.Matches r' w :=
  hvw.mono fun _ _ => h.keeps

/-- **Two paired containers changed in place**, such that they hold the same again. -/
theorem set (h : Pairing σ τ r) (hab : r a b) (hcd : c.Matches r d) :
    ChangeAlike σ τ r (σ.set a c) (τ.set b d) r where
  first a' c' hunpaired hc' := by
    have hne : a ≠ a' := fun heq => hunpaired b (heq ▸ hab)
    rw [cell?_set_of_ne hne, hc']
  second b' d' hunpaired hd' := by
    have hne : b ≠ b' := fun heq => hunpaired a (heq ▸ hab)
    rw [cell?_set_of_ne hne, hd']
  pairing :=
    { cells := by
        intro a' b' hab'
        by_cases heq : a = a'
        · subst heq
          obtain rfl := h.right hab hab'
          exact ⟨c, d, cell?_set_self (h.lt_size hab).1, cell?_set_self (h.lt_size hab).2, hcd⟩
        · -- Another container on the one side is another one on the other side, too.
          have hne : b ≠ b' := fun heq' => heq (h.left hab (heq' ▸ hab'))
          rw [cell?_set_of_ne heq, cell?_set_of_ne hne]
          exact h.cells hab'
      right := h.right
      left := h.left }
  keeps := id
  fresh := .inl

/-! ## §3 What lies below all pairs -/

/-- **What lies below all pairs stays as it was.** -/
theorem extends_first (h : ChangeAlike σ τ r σ' τ' r') (hbase : base.Extends σ)
    (habove : ∀ {a b}, r a b → base.cells.size ≤ a) : base.Extends σ' := by
  intro a c hc
  refine h.first a c (fun b hab => ?_) (hbase a c hc)
  exact absurd (lt_size_of_cell? hc) (Nat.not_lt_of_le (habove hab))

/-- New pairs are above what lay below all pairs. -/
theorem above_first (h : ChangeAlike σ τ r σ' τ' r') (hbase : base.Extends σ)
    (habove : ∀ {a b}, r a b → base.cells.size ≤ a) {a b : Nat} (hab : r' a b) :
    base.cells.size ≤ a := by
  rcases h.fresh hab with hold | ⟨hle, -⟩
  · exact habove hold
  · exact Nat.le_trans hbase.size_le hle

end ChangeAlike

end Store

end Switchyard
