import Switchyard.Proofs.Expression.Closed
import Switchyard.Proofs.Value.Entries
import Switchyard.Proofs.Value.Reach
import Mathlib.Data.List.Perm.Subperm

/-!
# The same data in two stores

Two stores keep their containers at different addresses. A value of the one is the same data as a
value of the other if addresses can be paired, each with one other, so that paired containers hold
the same up to the pairing. Containers may hold each other in circles, so a pairing is not built up
from below: it is any relation under which everything agrees.

Main statements: what data shows is the same (`Pairing.shape`), new containers that hold the same
can be paired too (`GrowAlike.alloc`), and a pairing goes on through changes that leave alone what
some values lead to (`Pairing.merge`).
-/

namespace Switchyard

/-! ## §1 Values up to a pairing of addresses -/

/-- **The same data**, if containers at related addresses are. -/
inductive Value.Matches (r : Nat → Nat → Prop) : Value → Value → Prop
  | atom (s : Scalar) : Matches r (.atom s) (.atom s)
  | list {vs ws : List Value} :
      vs.length = ws.length → (∀ pair ∈ vs.zip ws, Matches r pair.1 pair.2) →
      Matches r (.list vs) (.list ws)
  | tuple {vs ws : List Value} :
      vs.length = ws.length → (∀ pair ∈ vs.zip ws, Matches r pair.1 pair.2) →
      Matches r (.tuple vs) (.tuple ws)
  | map {es fs : Entries} :
      es.length = fs.length → (∀ pair ∈ es.zip fs, pair.1.1 = pair.2.1) →
      (∀ pair ∈ es.zip fs, Matches r pair.1.2 pair.2.2) → Matches r (.map es) (.map fs)
  | shared {a b : Nat} : r a b → Matches r (.shared a) (.shared b)

/-- Containers of one kind that hold the same data. -/
inductive Cell.Matches (r : Nat → Nat → Prop) : Cell → Cell → Prop
  | list {vs ws : List Value} :
      List.Forall₂ (Value.Matches r) vs ws → Matches r (.list vs) (.list ws)
  | map {es fs : Entries} : es.Correspond (Value.Matches r) fs → Matches r (.map es) (.map fs)
  | view {es fs : Entries} : es.Correspond (Value.Matches r) fs → Matches r (.view es) (.view fs)

/-- What shows the same data. -/
inductive Shape.Matches (r : Nat → Nat → Prop) : Shape → Shape → Prop
  | scalar (s : Scalar) : Matches r (.scalar s) (.scalar s)
  | sequence {vs ws : List Value} :
      List.Forall₂ (Value.Matches r) vs ws → Matches r (.sequence vs) (.sequence ws)
  | mapping {es fs : Entries} :
      es.Correspond (Value.Matches r) fs → Matches r (.mapping es) (.mapping fs)

/-- Members of lists that are related one by one. -/
theorem forall₂_of_mem {α β : Type} {r s : α → β → Prop} {as : List α} {bs : List β}
    (h : List.Forall₂ r as bs) (himp : ∀ a ∈ as, ∀ b ∈ bs, r a b → s a b) :
    List.Forall₂ s as bs := by
  obtain ⟨hlength, hzip⟩ := List.forall₂_iff_zip.mp h
  refine List.forall₂_iff_zip.mpr ⟨hlength, fun {a b} hpair => ?_⟩
  obtain ⟨ha, hb⟩ := List.of_mem_zip hpair
  exact himp a ha b hb (hzip hpair)

namespace Value

variable {r r' : Nat → Nat → Prop} {v w : Value} {vs ws : List Value}
  {es fs : Entries} {a b n : Nat}

theorem matches_list_iff :
    (Value.list vs).Matches r (.list ws) ↔ List.Forall₂ (Value.Matches r) vs ws := by
  rw [List.forall₂_iff_zip]
  constructor
  · intro h
    cases h with
    | list hlength hitems => exact ⟨hlength, fun hpair => hitems _ hpair⟩
  · rintro ⟨hlength, hitems⟩
    exact .list hlength fun pair hpair => hitems hpair

theorem matches_tuple_iff :
    (Value.tuple vs).Matches r (.tuple ws) ↔ List.Forall₂ (Value.Matches r) vs ws := by
  rw [List.forall₂_iff_zip]
  constructor
  · intro h
    cases h with
    | tuple hlength hitems => exact ⟨hlength, fun hpair => hitems _ hpair⟩
  · rintro ⟨hlength, hitems⟩
    exact .tuple hlength fun pair hpair => hitems hpair

theorem matches_map_iff :
    (Value.map es).Matches r (.map fs) ↔ es.Correspond (Value.Matches r) fs := by
  rw [Entries.Correspond, List.forall₂_iff_zip]
  constructor
  · intro h
    cases h with
    | map hlength hkeys hvalues => exact ⟨hlength, fun hpair => ⟨hkeys _ hpair, hvalues _ hpair⟩⟩
  · rintro ⟨hlength, hentries⟩
    exact .map hlength (fun pair hpair => (hentries hpair).1) fun pair hpair => (hentries hpair).2

/-- Data is the same under a relation that holds of all its containers. -/
theorem Matches.restrict {σ τ : Store} (h : v.Matches r w)
    (himp : ∀ a b, σ.Leads v a → τ.Leads w b → r a b → r' a b) : v.Matches r' w := by
  induction h with
  | atom s => exact .atom s
  | list hlength _ ih =>
    refine .list hlength fun pair hpair => ih pair hpair fun a b ha hb => ?_
    exact himp a b (.part (List.of_mem_zip hpair).1 ha) (.part (List.of_mem_zip hpair).2 hb)
  | tuple hlength _ ih =>
    refine .tuple hlength fun pair hpair => ih pair hpair fun a b ha hb => ?_
    exact himp a b (.part (List.of_mem_zip hpair).1 ha) (.part (List.of_mem_zip hpair).2 hb)
  | map hlength hkeys _ ih =>
    refine .map hlength hkeys fun pair hpair => ih pair hpair fun a b ha hb => ?_
    exact himp a b (.part (List.mem_map_of_mem (List.of_mem_zip hpair).1) ha)
      (.part (List.mem_map_of_mem (List.of_mem_zip hpair).2) hb)
  | shared hr => exact .shared (himp _ _ (.here _) (.here _) hr)

theorem Matches.mono (h : v.Matches r w) (himp : ∀ a b, r a b → r' a b) : v.Matches r' w :=
  h.restrict (σ := .empty) (τ := .empty) fun a b _ _ => himp a b

/-- Data within bounds is the same as itself, if what is within the bounds is. -/
theorem Within.matches_self (h : v.Within n) (hr : ∀ a < n, r a a) : v.Matches r v := by
  induction h with
  | atom s => exact .atom s
  | list _ ih => exact matches_list_iff.mpr (List.forall₂_same.mpr ih)
  | tuple _ ih => exact matches_tuple_iff.mpr (List.forall₂_same.mpr ih)
  | map _ ih =>
    exact matches_map_iff.mpr (List.forall₂_same.mpr fun entry hentry => ⟨rfl, ih entry hentry⟩)
  | shared hlt => exact .shared (hr _ hlt)

/-- Plain data is the same everywhere. -/
theorem matches_self_of_plain (h : v.Within 0) : v.Matches r v :=
  h.matches_self fun _ hlt => absurd hlt (Nat.not_lt_zero _)

end Value

namespace Cell

variable {r r' : Nat → Nat → Prop} {c d : Cell} {n : Nat}

/-- Containers hold the same under a relation under which their values are the same. -/
theorem Matches.imp (h : c.Matches r d)
    (himp : ∀ v ∈ c.values, ∀ w ∈ d.values, v.Matches r w → v.Matches r' w) : c.Matches r' d := by
  cases h with
  | list h => exact .list (forall₂_of_mem h himp)
  | map h =>
    exact .map (forall₂_of_mem h fun p hp q hq hpq =>
      ⟨hpq.1, himp _ (List.mem_map_of_mem hp) _ (List.mem_map_of_mem hq) hpq.2⟩)
  | view h =>
    exact .view (forall₂_of_mem h fun p hp q hq hpq =>
      ⟨hpq.1, himp _ (List.mem_map_of_mem hp) _ (List.mem_map_of_mem hq) hpq.2⟩)

/-- A container within bounds holds the same as itself. -/
theorem Within.matches_self (h : c.Within n) (hr : ∀ a < n, r a a) : c.Matches r c := by
  cases c with
  | list items => exact .list (List.forall₂_same.mpr fun v hv => (h v hv).matches_self hr)
  | map entries =>
    exact .map (List.forall₂_same.mpr fun entry hentry => ⟨rfl, (h entry hentry).matches_self hr⟩)
  | view entries =>
    exact .view (List.forall₂_same.mpr fun entry hentry => ⟨rfl, (h entry hentry).matches_self hr⟩)

end Cell

/-! ## §2 Pairings -/

namespace Store

/-- **A pairing** of containers of two stores: paired ones hold the same, and each is paired
with one other at most. -/
structure Pairing (σ τ : Store) (r : Nat → Nat → Prop) : Prop where
  cells : ∀ {a b}, r a b → ∃ c d, σ.cell? a = some c ∧ τ.cell? b = some d ∧ c.Matches r d
  right : ∀ {a b b'}, r a b → r a b' → b = b'
  left : ∀ {a a' b}, r a b → r a' b → a = a'

/-- **The same data** in two stores. -/
def Same (σ : Store) (v : Value) (τ : Store) (w : Value) : Prop :=
  ∃ r, Pairing σ τ r ∧ v.Matches r w

/-- Every cell but one is in the second store as it was. -/
def ExtendsBut (out : Nat) (σ τ : Store) : Prop :=
  ∀ address cell, address ≠ out → σ.cell? address = some cell → τ.cell? address = some cell

variable {r r' : Nat → Nat → Prop} {σ σ' τ τ' ρ : Store} {v w : Value} {a b : Nat} {c d : Cell}

theorem Extends.extendsBut_trans {out : Nat} (h : σ.Extends τ) (h' : τ.ExtendsBut out ρ) :
    σ.ExtendsBut out ρ :=
  fun address cell hother hcell => h' address cell hother (h address cell hcell)

namespace Pairing

theorem lt_size (h : Pairing σ τ r) (hab : r a b) : a < σ.cells.size ∧ b < τ.cells.size := by
  obtain ⟨c, d, hc, hd, -⟩ := h.cells hab
  exact ⟨lt_size_of_cell? hc, lt_size_of_cell? hd⟩

/-- No containers need be paired. -/
theorem none : Pairing σ τ fun _ _ => False where
  cells := False.elim
  right hab := hab.elim
  left hab := hab.elim

/-- **What data shows** is the same. -/
theorem shape (h : Pairing σ τ r) (hvw : v.Matches r w) : (σ.shape v).Matches r (τ.shape w) := by
  cases hvw with
  | atom s => exact .scalar s
  | list hlength hitems => exact .sequence (Value.matches_list_iff.mp (.list hlength hitems))
  | tuple hlength hitems => exact .sequence (Value.matches_tuple_iff.mp (.tuple hlength hitems))
  | map hlength hkeys hvalues =>
    exact .mapping (Value.matches_map_iff.mp (.map hlength hkeys hvalues))
  | shared hab =>
    obtain ⟨c, d, hc, hd, hmatches⟩ := h.cells hab
    simp only [Store.shape, hc, hd]
    cases hmatches with
    | list h => exact .sequence h
    | map h => exact .mapping h
    | view h => exact .mapping h

/-- A pairing goes on while the containers that it pairs stay as they are. -/
theorem of_kept (h : Pairing σ τ r)
    (hσ : ∀ {a b c}, r a b → σ.cell? a = some c → σ'.cell? a = some c)
    (hτ : ∀ {a b d}, r a b → τ.cell? b = some d → τ'.cell? b = some d) : Pairing σ' τ' r where
  cells hab := by
    obtain ⟨c, d, hc, hd, hmatches⟩ := h.cells hab
    exact ⟨c, d, hσ hab hc, hτ hab hd, hmatches⟩
  right := h.right
  left := h.left

/-- **Two pairings merged**: the pairs of the first one that some data leads to in both stores,
while these stay as they are, and all pairs of the second one, as far as that pairs nothing else of
what was there before. -/
theorem merge (h : Pairing σ τ r) (h' : Pairing σ' τ' r') (hσ : σ.SameFrom v σ')
    (hτ : τ.SameFrom w τ')
    (hfresh : ∀ {a b}, r' a b → r a b ∨ σ.cells.size ≤ a ∧ τ.cells.size ≤ b) :
    Pairing σ' τ' fun a b => r' a b ∨ r a b ∧ σ.Leads v a ∧ τ.Leads w b where
  cells := by
    rintro a b (hab | ⟨hab, ha, hb⟩)
    · obtain ⟨c, d, hc, hd, hmatches⟩ := h'.cells hab
      exact ⟨c, d, hc, hd, hmatches.imp fun x _ y _ hxy => hxy.mono fun _ _ => .inl⟩
    · obtain ⟨c, d, hc, hd, hmatches⟩ := h.cells hab
      refine ⟨c, d, hσ _ _ ha hc, hτ _ _ hb hd, hmatches.imp fun x hx y hy hxy => ?_⟩
      -- What a container holds, the data leads to as well.
      refine hxy.restrict (σ := σ) (τ := τ) fun a' b' ha' hb' hab' => .inr ⟨hab', ?_, ?_⟩
      · exact ha.trans (.held hc hx ha')
      · exact hb.trans (.held hd hy hb')
  right := by
    have hmixed : ∀ {a b b'}, r' a b → r a b' → b = b' := by
      intro a b b' hab hab'
      rcases hfresh hab with hold | ⟨hle, -⟩
      · exact h.right hold hab'
      · exact absurd (h.lt_size hab').1 (Nat.not_lt_of_le hle)
    rintro a b b' (hab | ⟨hab, -⟩) (hab' | ⟨hab', -⟩)
    · exact h'.right hab hab'
    · exact hmixed hab hab'
    · exact (hmixed hab' hab).symm
    · exact h.right hab hab'
  left := by
    have hmixed : ∀ {a a' b}, r' a b → r a' b → a = a' := by
      intro a a' b hab hab'
      rcases hfresh hab with hold | ⟨-, hle⟩
      · exact h.left hold hab'
      · exact absurd (h.lt_size hab').2 (Nat.not_lt_of_le hle)
    rintro a a' b (hab | ⟨hab, -⟩) (hab' | ⟨hab', -⟩)
    · exact h'.left hab hab'
    · exact hmixed hab hab'
    · exact (hmixed hab' hab).symm
    · exact h.left hab hab'

end Pairing

/-- The containers of a closed store are paired with themselves in any two
stores that grew from it. -/
theorem Closed.pairing (hρ : ρ.Closed) (hσ : ρ.Extends σ) (hτ : ρ.Extends τ) :
    Pairing σ τ fun a b => a = b ∧ a < ρ.cells.size where
  cells := by
    rintro a b ⟨rfl, hlt⟩
    obtain ⟨cell, hcell⟩ := cell?_of_lt_size hlt
    exact ⟨cell, cell, hσ _ _ hcell, hτ _ _ hcell,
      (hρ _ _ hcell).matches_self fun a hlt => ⟨rfl, hlt⟩⟩
  right := by
    rintro a b b' ⟨rfl, -⟩ ⟨rfl, -⟩
    rfl
  left := by
    rintro a a' b ⟨rfl, -⟩ ⟨rfl, -⟩
    rfl

/-! ## §3 Stores that grow alike -/

/-- **Two stores have grown alike**: a pairing has grown with them, and new pairs are
pairs of new containers. -/
structure GrowAlike (σ τ : Store) (r : Nat → Nat → Prop) (σ' τ' : Store)
    (r' : Nat → Nat → Prop) : Prop where
  first : σ.Extends σ'
  second : τ.Extends τ'
  pairing : Pairing σ' τ' r'
  keeps : ∀ {a b}, r a b → r' a b
  fresh : ∀ {a b}, r' a b → r a b ∨ σ.cells.size ≤ a ∧ τ.cells.size ≤ b

namespace GrowAlike

variable {σ'' τ'' : Store} {r'' : Nat → Nat → Prop}

theorem refl (h : Pairing σ τ r) : GrowAlike σ τ r σ τ r where
  first := .refl σ
  second := .refl τ
  pairing := h
  keeps := id
  fresh := .inl

theorem trans (h : GrowAlike σ τ r σ' τ' r') (h' : GrowAlike σ' τ' r' σ'' τ'' r'') :
    GrowAlike σ τ r σ'' τ'' r'' where
  first := h.first.trans h'.first
  second := h.second.trans h'.second
  pairing := h'.pairing
  keeps hab := h'.keeps (h.keeps hab)
  fresh hab := by
    rcases h'.fresh hab with hab | ⟨hle, hle'⟩
    · exact h.fresh hab
    · exact .inr ⟨Nat.le_trans h.first.size_le hle, Nat.le_trans h.second.size_le hle'⟩

/-- Data that is the same stays the same. -/
theorem matches_mono (h : GrowAlike σ τ r σ' τ' r') (hvw : v.Matches r w) : v.Matches r' w :=
  hvw.mono fun _ _ => h.keeps

/-- **New containers** that hold the same are paired. -/
theorem alloc (h : Pairing σ τ r) (hcd : c.Matches r d) :
    GrowAlike σ τ r (σ.alloc c).2 (τ.alloc d).2 fun a b => r a b ∨ a = σ.cells.size ∧
      b = τ.cells.size where
  first := extends_alloc σ c
  second := extends_alloc τ d
  keeps := .inl
  fresh := by
    rintro a b (hab | ⟨rfl, rfl⟩)
    · exact .inl hab
    · exact .inr ⟨Nat.le_refl _, Nat.le_refl _⟩
  pairing :=
    { cells := by
        have hgrown : ∀ {c d : Cell}, c.Matches r d →
            c.Matches (fun a b => r a b ∨ a = σ.cells.size ∧ b = τ.cells.size) d :=
          fun hcd => hcd.imp fun _ _ _ _ hxy => hxy.mono fun _ _ => .inl
        rintro a b (hab | ⟨rfl, rfl⟩)
        · obtain ⟨c', d', hc, hd, hmatches⟩ := h.cells hab
          exact ⟨c', d', extends_alloc σ c _ _ hc, extends_alloc τ d _ _ hd, hgrown hmatches⟩
        · exact ⟨c, d, cell?_alloc_self, cell?_alloc_self, hgrown hcd⟩
      -- The new addresses are paired with nothing else, since they were none before.
      right := by
        rintro a b b' (hab | ⟨rfl, rfl⟩) (hab' | ⟨heq, rfl⟩)
        · exact h.right hab hab'
        · exact absurd (h.lt_size hab).1 (heq ▸ Nat.lt_irrefl _)
        · exact absurd (h.lt_size hab').1 (Nat.lt_irrefl _)
        · rfl
      left := by
        rintro a a' b (hab | ⟨rfl, rfl⟩) (hab' | ⟨rfl, heq⟩)
        · exact h.left hab hab'
        · exact absurd (h.lt_size hab).2 (heq ▸ Nat.lt_irrefl _)
        · exact absurd (h.lt_size hab').2 (Nat.lt_irrefl _)
        · rfl }

end GrowAlike

end Store

/-! ## §4 The same data in words -/

namespace Value

variable {r : Nat → Nat → Prop} {v w : Value} {vs ws : List Value} {es fs : Entries}
  {f g : Nat → String}

theorem displayItems_eq (h : List.Forall₂ (fun v w => displayWith f v = displayWith g w) vs ws) :
    displayItems f vs = displayItems g ws := by
  induction h with
  | nil => rfl
  | cons hvw _ ih => rw [displayItems, displayItems, hvw, ih]

theorem displayEntries_eq (h : es.Correspond (fun v w => displayWith f v = displayWith g w) fs) :
    displayEntries f es = displayEntries g fs := by
  induction h with
  | nil => rfl
  | cons hpq _ ih => rw [displayEntries, displayEntries, hpq.1, hpq.2, ih]

/-- The same data is displayed the same if the containers in it are. -/
theorem Matches.displayWith_eq (h : v.Matches r w) (hshared : ∀ a b, r a b → f a = g b) :
    displayWith f v = displayWith g w := by
  induction h with
  | atom s => rfl
  | list hlength _ ih =>
    rw [displayWith, displayWith,
      displayItems_eq (List.forall₂_iff_zip.mpr ⟨hlength, fun hpair => ih _ hpair⟩)]
  | tuple hlength _ ih =>
    rw [displayWith, displayWith,
      displayItems_eq (List.forall₂_iff_zip.mpr ⟨hlength, fun hpair => ih _ hpair⟩)]
  | map hlength hkeys _ ih =>
    rw [displayWith, displayWith,
      displayEntries_eq (List.forall₂_iff_zip.mpr ⟨hlength, fun hpair =>
        ⟨hkeys _ hpair, ih _ hpair⟩⟩)]
  | shared hab => exact hshared _ _ hab

end Value

namespace Store.Pairing

variable {r : Nat → Nat → Prop} {σ τ : Store} {v w : Value} {a b : Nat} {pairs : List (Nat × Nat)}

/-- The same data has one type. -/
theorem typeName_eq (h : Pairing σ τ r) (hvw : v.Matches r w) : v.typeName σ = w.typeName τ := by
  cases hvw with
  | shared hab =>
    obtain ⟨c, d, hc, hd, hmatches⟩ := h.cells hab
    simp only [Value.typeName, hc, hd]
    cases hmatches <;> rfl
  | atom s => cases s <;> rfl
  | list _ _ | tuple _ _ | map _ _ _ => rfl

/-- The same data is of one kind. -/
theorem kindName_eq (h : Pairing σ τ r) (hvw : v.Matches r w) : v.kindName σ = w.kindName τ := by
  cases hvw with
  | shared hab =>
    obtain ⟨c, d, hc, hd, hmatches⟩ := h.cells hab
    simp only [Value.kindName, Value.typeName, hc, hd]
    cases hmatches <;> rfl
  | atom s => cases s <;> rfl
  | list _ _ | tuple _ _ | map _ _ _ => rfl

/-- Of two paired containers both or none are among others that are paired. -/
theorem mem_iff (h : Pairing σ τ r) (hpairs : ∀ p ∈ pairs, r p.1 p.2) (hab : r a b) :
    a ∈ pairs.map (·.1) ↔ b ∈ pairs.map (·.2) := by
  simp only [List.mem_map]
  constructor
  · rintro ⟨p, hp, rfl⟩
    exact ⟨p, hp, h.right (hpairs p hp) hab⟩
  · rintro ⟨p, hp, rfl⟩
    exact ⟨p, hp, h.left (hpairs p hp) hab⟩

/-- No more different containers are paired than there are in either store. -/
theorem length_le_size (h : Pairing σ τ r) (hpairs : ∀ p ∈ pairs, r p.1 p.2)
    (hnodup : (pairs.map (·.1)).Nodup) (hnodup' : (pairs.map (·.2)).Nodup) :
    pairs.length ≤ σ.cells.size ∧ pairs.length ≤ τ.cells.size := by
  have hle : ∀ {as : List Nat} {n : Nat}, as.Nodup → (∀ a ∈ as, a < n) → as.length ≤ n := by
    intro as n has hlt
    simpa using (has.subperm fun a ha => List.mem_range.mpr (hlt a ha)).length_le
  constructor
  · simpa using hle hnodup (List.forall_mem_map.mpr fun p hp => (h.lt_size (hpairs p hp)).1)
  · simpa using hle hnodup' (List.forall_mem_map.mpr fun p hp => (h.lt_size (hpairs p hp)).2)

/-- **Paired containers** are displayed the same inside others that are paired, if the depths have
room for all containers of their stores. -/
theorem displayCell_eq (h : Pairing σ τ r) {d d' : Nat} (hpairs : ∀ p ∈ pairs, r p.1 p.2)
    (hnodup : (pairs.map (·.1)).Nodup) (hnodup' : (pairs.map (·.2)).Nodup)
    (hd : σ.cells.size < d + pairs.length) (hd' : τ.cells.size < d' + pairs.length) (hab : r a b) :
    Value.displayCell σ d (pairs.map (·.1)) a = Value.displayCell τ d' (pairs.map (·.2)) b := by
  induction d generalizing d' pairs a b with
  | zero =>
    have := (h.length_le_size hpairs hnodup hnodup').1
    omega
  | succ d ih =>
    obtain _ | d' := d'
    · have := (h.length_le_size hpairs hnodup hnodup').2
      omega
    have hagain := h.mem_iff hpairs hab
    obtain ⟨c, e, hc, he, hmatches⟩ := h.cells hab
    by_cases hmem : a ∈ pairs.map (·.1)
    · -- Met again, the containers are not opened.
      have hmem' := hagain.mp hmem
      simp only [Value.displayCell, hc, he, List.contains_iff_mem.mpr hmem,
        List.contains_iff_mem.mpr hmem', if_true]
      cases hmatches <;> rfl
    · have hmem' := mt hagain.mpr hmem
      have hopened : ∀ p ∈ (a, b) :: pairs, r p.1 p.2 := List.forall_mem_cons.mpr ⟨hab, hpairs⟩
      have hinner : ∀ x y, r x y → Value.displayCell σ d (a :: pairs.map (·.1)) x =
          Value.displayCell τ d' (b :: pairs.map (·.2)) y := by
        intro x y hxy
        refine ih hopened (List.nodup_cons.mpr ⟨hmem, hnodup⟩)
          (List.nodup_cons.mpr ⟨hmem', hnodup'⟩) ?_ ?_ hxy
        · rw [List.length_cons]
          omega
        · rw [List.length_cons]
          omega
      have hcontains := (Bool.not_eq_true _).mp (mt List.contains_iff_mem.mp hmem)
      have hcontains' := (Bool.not_eq_true _).mp (mt List.contains_iff_mem.mp hmem')
      simp only [Value.displayCell, hc, he, hcontains, hcontains']
      cases hmatches with
      | list hitems => exact (Value.matches_list_iff.mpr hitems).displayWith_eq hinner
      | map hentries => exact (Value.matches_map_iff.mpr hentries).displayWith_eq hinner
      | view hentries =>
        simp only [Bool.false_eq_true, if_false,
          (Value.matches_map_iff.mpr hentries).displayWith_eq hinner]

/-- **The same data** is displayed the same. -/
theorem displayed_eq (h : Pairing σ τ r) (hvw : v.Matches r w) : v.displayed σ = w.displayed τ := by
  have hnone : ∀ p ∈ ([] : List (Nat × Nat)), r p.1 p.2 := nofun
  apply hvw.displayWith_eq
  intro a b hab
  exact h.displayCell_eq hnone .nil .nil (Nat.lt_succ_self _) (Nat.lt_succ_self _) hab

/-- The same data is shown the same. -/
theorem shown_eq (h : Pairing σ τ r) (hvw : v.Matches r w) : v.shown σ = w.shown τ := by
  have hdisplayed := h.displayed_eq hvw
  cases hvw with
  | atom s => rfl
  | list _ _ | tuple _ _ | map _ _ _ | shared _ => exact hdisplayed

end Store.Pairing

end Switchyard
