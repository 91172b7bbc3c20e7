import Switchyard.Proofs.Value.Extension

/-!
# What a value leads to

A value leads to the containers in it and to whatever they hold, on and on. A value is as it was if
all the containers that it leads to are.

Main statement: what a value leads to, it still leads to if the containers on the way hold at least
what they held (`Leads.mono`).
-/

namespace Switchyard

/-- The values that a value is made of. -/
def Value.parts : Value → List Value
  | .list items | .tuple items => items
  | .map entries => entries.map (·.2)
  | .atom _ | .shared _ => []

/-- The values that a container holds. -/
def Cell.values : Cell → List Value
  | .list items => items
  | .map entries | .view entries => entries.map (·.2)

namespace Store

variable {σ τ ρ : Store} {v part : Value} {address : Nat}

/-- **A value leads to a container**: it is in the value, or in a container that
the value leads to. -/
inductive Leads (σ : Store) : Value → Nat → Prop
  | here (address : Nat) : Leads σ (.shared address) address
  | part {v part : Value} {address : Nat} :
      part ∈ v.parts → Leads σ part address → Leads σ v address
  | held {address other : Nat} {cell : Cell} {v : Value} :
      σ.cell? address = some cell → v ∈ cell.values → Leads σ v other →
      Leads σ (.shared address) other

/-- **A value is as it was**: every container that it leads to is. -/
def SameFrom (σ : Store) (v : Value) (τ : Store) : Prop :=
  ∀ address cell, σ.Leads v address → σ.cell? address = some cell → τ.cell? address = some cell

/-- **What a value leads to**, it still leads to if the containers on the way hold what they
held, and maybe more. -/
theorem Leads.mono (h : σ.Leads v address)
    (hholds : ∀ other cell, σ.Leads v other → σ.cell? other = some cell →
      ∃ cell', τ.cell? other = some cell' ∧ cell.values ⊆ cell'.values) :
    τ.Leads v address := by
  induction h with
  | here address => exact .here address
  | part hpart _ ih =>
    exact .part hpart (ih fun other cell hleads => hholds other cell (.part hpart hleads))
  | held hcell hheld _ ih =>
    obtain ⟨cell', hcell', hvalues⟩ := hholds _ _ (.here _) hcell
    exact .held hcell' (hvalues hheld) (ih fun other cell hleads =>
      hholds other cell (.held hcell hheld hleads))

/-- A container that a value leads to leads on. -/
theorem Leads.trans {other : Nat} (h : σ.Leads v address) (h' : σ.Leads (.shared address) other) :
    σ.Leads v other := by
  induction h with
  | here _ => exact h'
  | part hpart _ ih => exact .part hpart (ih h')
  | held hcell hheld _ ih => exact .held hcell hheld (ih h')

/-- Data without parts lead nowhere. -/
theorem not_leads_atom (s : Scalar) : ¬ σ.Leads (.atom s) address := by
  intro h
  cases h with
  | part hpart _ => cases hpart

end Store

end Switchyard
