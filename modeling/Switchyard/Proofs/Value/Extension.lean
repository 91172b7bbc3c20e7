import Switchyard.Binding.Resolve
import Mathlib.Data.List.Nodup

/-!
# Stores that grow

Laying out data and resolving bindings only ever add cells to a store: every cell that was there
stays as it is. A weaker relation is kept by everything that units may do, who cannot change a view.

Main statements: laying out data and resolving bindings extend the store
(`layOut_extends`, `resolve_extends`).
-/

namespace Switchyard

namespace Store

variable {σ τ ρ : Store} {cell : Cell} {address other : Nat}

/-- **Extension**: every cell of the first store is in the second one as it was. -/
def Extends (σ τ : Store) : Prop :=
  ∀ address cell, σ.cell? address = some cell → τ.cell? address = some cell

/-- Every view of the first store is in the second one as it was. -/
def KeepsViews (σ τ : Store) : Prop :=
  ∀ address entries, σ.cell? address = some (.view entries) → τ.cell? address = some (.view entries)

/-! ## §1 Single cells -/

@[simp] theorem alloc_fst : (σ.alloc cell).1 = .shared σ.cells.size := rfl

@[simp] theorem size_alloc : (σ.alloc cell).2.cells.size = σ.cells.size + 1 := by
  simp [alloc]

/-- The cells after one was added. -/
theorem cell?_alloc : (σ.alloc cell).2.cell? address = if address = σ.cells.size then
    some cell else σ.cell? address := by
  simp only [alloc, cell?, Array.getElem?_push]

@[simp] theorem cell?_alloc_self : (σ.alloc cell).2.cell? σ.cells.size = some cell := by
  simp [cell?_alloc]

theorem lt_size_of_cell? (h : σ.cell? address = some cell) : address < σ.cells.size := by
  obtain ⟨hlt, -⟩ := Array.getElem?_eq_some_iff.mp h
  exact hlt

theorem cell?_of_lt_size (h : address < σ.cells.size) : ∃ cell, σ.cell? address = some cell :=
  ⟨_, Array.getElem?_eq_getElem h⟩

@[simp] theorem size_set : (σ.set address cell).cells.size = σ.cells.size := by
  simp [set]

theorem cell?_set_self (h : address < σ.cells.size) :
    (σ.set address cell).cell? address = some cell := by
  simp [set, cell?, h]

theorem cell?_set_of_ne (h : address ≠ other) :
    (σ.set address cell).cell? other = σ.cell? other := by
  simp [set, cell?, h]

/-- Setting a cell to what it is changes nothing. -/
theorem set_eq_self (h : σ.cell? address = some cell) : σ.set address cell = σ := by
  obtain ⟨hlt, hcell⟩ := Array.getElem?_eq_some_iff.mp h
  -- Cell by cell: the one that is set is as it was, and so are all the others.
  have hcells : σ.cells.setIfInBounds address cell = σ.cells := by
    apply Array.ext_getElem?
    intro i
    rw [Array.getElem?_setIfInBounds]
    split_ifs with hi
    · exact hi ▸ h.symm
    · rfl
  rw [set, hcells]

/-! ## §2 Extension -/

namespace Extends

theorem refl (σ : Store) : σ.Extends σ := fun _ _ h => h

theorem trans (h : σ.Extends τ) (h' : τ.Extends ρ) : σ.Extends ρ := fun a c hc => h' a c (h a c hc)

theorem size_le (h : σ.Extends τ) : σ.cells.size ≤ τ.cells.size := by
  by_contra hlt
  -- Else there would be a cell in the first store at the end of the second one.
  obtain ⟨cell, hcell⟩ : ∃ cell, σ.cell? τ.cells.size = some cell := cell?_of_lt_size (by omega)
  exact absurd (lt_size_of_cell? (h _ _ hcell)) (Nat.lt_irrefl _)

theorem keepsViews (h : σ.Extends τ) : σ.KeepsViews τ := fun a _ hview => h a _ hview

end Extends

/-- A new cell extends the store. -/
theorem extends_alloc (σ : Store) (cell : Cell) : σ.Extends (σ.alloc cell).2 := by
  intro address c hcell
  -- A cell that is there does not have the address of the new one.
  rw [cell?_alloc, if_neg (Nat.ne_of_lt (lt_size_of_cell? hcell))]
  exact hcell

mutual

theorem layOutValue_extends : ∀ (v : Value) (σ : Store), σ.Extends (layOutValue v σ).2
  | .atom _, σ | .shared _, σ => Extends.refl σ
  | .tuple items, σ => layOutItems_extends items σ
  | .list items, σ => (layOutItems_extends items σ).trans (extends_alloc _ _)
  | .map entries, σ => (layOutEntries_extends entries σ).trans (extends_alloc _ _)

theorem layOutItems_extends : ∀ (items : List Value) (σ : Store), σ.Extends (layOutItems items σ).2
  | [], σ => Extends.refl σ
  | v :: rest, σ => (layOutValue_extends v σ).trans (layOutItems_extends rest _)

theorem layOutEntries_extends : ∀ (entries : List (Scalar × Value)) (σ : Store),
    σ.Extends (layOutEntries entries σ).2
  | [], σ => Extends.refl σ
  | (_, v) :: rest, σ => (layOutValue_extends v σ).trans (layOutEntries_extends rest _)

end

/-- **Laying out** data extends the store. -/
theorem layOut_extends (σ : Store) (v : Value) : σ.Extends (σ.layOut v).2 := layOutValue_extends v σ

end Store

/-! ## §3 Resolving -/

/-- Two computations in a row succeed exactly if the first one does and the second one
does with its result. -/
theorem bind_ok_iff {ε α β : Type} {x : Except ε α} {f : α → Except ε β} {y : β} :
    x >>= f = .ok y ↔ ∃ a, x = .ok a ∧ f a = .ok y := by
  cases x with
  | error e =>
    constructor
    · intro h
      cases h
    · rintro ⟨_, h, _⟩
      cases h
  | ok a =>
    constructor
    · intro h
      exact ⟨a, rfl, h⟩
    · rintro ⟨_, h, h'⟩
      cases h
      exact h'

namespace Binding

open Expression (EvalProblem)

variable {context : Value}

mutual

/-- **Resolving** a binding extends the store. -/
theorem resolve_extends : ∀ {b : Binding} {σ τ : Store} {v : Value},
    resolve context b σ = .ok (v, τ) → σ.Extends τ
  | .literal value, σ, τ, v, h => by
    obtain ⟨rfl, rfl⟩ := Prod.mk.inj (Except.ok.inj h)
    exact σ.layOut_extends value
  | .expression e, σ, τ, v, h => by
    obtain ⟨w, -, h⟩ := bind_ok_iff.mp h
    obtain ⟨-, rfl⟩ := Prod.mk.inj (Except.ok.inj h)
    exact .refl σ
  | .list items, σ, τ, v, h => by
    obtain ⟨⟨values, ρ⟩, hitems, h⟩ := bind_ok_iff.mp h
    obtain ⟨-, rfl⟩ := Prod.mk.inj (Except.ok.inj h)
    exact (resolveItems_extends hitems).trans (Store.extends_alloc _ _)
  | .map entries, σ, τ, v, h => by
    obtain ⟨⟨pairs, ρ⟩, hentries, h⟩ := bind_ok_iff.mp h
    obtain ⟨-, rfl⟩ := Prod.mk.inj (Except.ok.inj h)
    exact (resolveEntries_extends hentries).trans (Store.extends_alloc _ _)

theorem resolveItems_extends : ∀ {items : List Binding} {σ τ : Store} {values : List Value},
    resolveItems context items σ = .ok (values, τ) → σ.Extends τ
  | [], σ, τ, values, h => by
    obtain ⟨-, rfl⟩ := Prod.mk.inj (Except.ok.inj h)
    exact .refl σ
  | b :: rest, σ, τ, values, h => by
    obtain ⟨⟨v, ρ⟩, hfirst, h⟩ := bind_ok_iff.mp h
    obtain ⟨⟨vs, ρ'⟩, hrest, h⟩ := bind_ok_iff.mp h
    obtain ⟨-, rfl⟩ := Prod.mk.inj (Except.ok.inj h)
    exact (resolve_extends hfirst).trans (resolveItems_extends hrest)

theorem resolveEntries_extends : ∀ {entries : List (String × Binding)} {σ τ : Store}
    {pairs : List (Scalar × Value)},
    resolveEntries context entries σ = .ok (pairs, τ) → σ.Extends τ
  | [], σ, τ, pairs, h => by
    obtain ⟨-, rfl⟩ := Prod.mk.inj (Except.ok.inj h)
    exact .refl σ
  | (k, b) :: rest, σ, τ, pairs, h => by
    obtain ⟨⟨v, ρ⟩, hfirst, h⟩ := bind_ok_iff.mp h
    obtain ⟨⟨vs, ρ'⟩, hrest, h⟩ := bind_ok_iff.mp h
    obtain ⟨-, rfl⟩ := Prod.mk.inj (Except.ok.inj h)
    exact (resolve_extends hfirst).trans (resolveEntries_extends hrest)

end

end Binding

end Switchyard
