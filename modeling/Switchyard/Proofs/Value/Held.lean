import Switchyard.Proofs.Value.Likeness

/-!
# What callers hold

Whoever holds a value can look into the containers that it leads to, put new ones together from what
is in there, and change them in place. Whatever holders do, they get at nothing but what they could
get at before and at what they make.

Main statements: data is the same as data that leads to as much (`Pairing.exists_of_leads`), what
leads to no more than existing containers is the same as itself (`Apart.pairing`), and containers
that holders have no way to stay as they are (`Apart.moves`).
-/

namespace Switchyard

/-! ## §1 Data that is the same -/

namespace Value

variable {r : Nat → Nat → Prop} {σ : Store} {v w part : Value} {es fs : Entries}

theorem exists_of_mem_forall₂ {α β : Type} {p : α → β → Prop} {as : List α} {bs : List β}
    (h : List.Forall₂ p as bs) {a : α} (ha : a ∈ as) : ∃ b, p a b := by
  induction h with
  | nil => cases ha
  | cons hab _ ih =>
    rcases List.mem_cons.mp ha with rfl | hrest
    · exact ⟨_, hab⟩
    · exact ih hrest

/-- A value of a map is the same as some other value, if the map is the same as another map. -/
theorem exists_of_mem_entries (h : es.Correspond (Matches r) fs) (hpart : part ∈ es.map (·.2)) :
    ∃ q, part.Matches r q := by
  obtain ⟨entry, hentry, rfl⟩ := List.mem_map.mp hpart
  obtain ⟨_, -, hmatches⟩ := exists_of_mem_forall₂ h hentry
  exact ⟨_, hmatches⟩

theorem Matches.exists_part (h : v.Matches r w) (hpart : part ∈ v.parts) :
    ∃ q, part.Matches r q := by
  cases h with
  | atom _ | shared _ => cases hpart
  | list hlength hitems =>
    exact exists_of_mem_forall₂ (matches_list_iff.mp (.list hlength hitems)) hpart
  | tuple hlength hitems =>
    exact exists_of_mem_forall₂ (matches_tuple_iff.mp (.tuple hlength hitems)) hpart
  | map hlength hkeys hvalues =>
    exact exists_of_mem_entries (matches_map_iff.mp (.map hlength hkeys hvalues)) hpart

mutual

/-- Data is the same as itself under a relation that holds of each of its containers and itself. -/
theorem matches_self : ∀ {v : Value}, (∀ a, σ.Leads v a → r a a) → v.Matches r v
  | .atom s, _ => .atom s
  | .shared a, h => .shared (h a (.here a))
  | .list _, h => matches_list_iff.mpr (items_match_self fun _ hv a ha => h a (.part hv ha))
  | .tuple _, h => matches_tuple_iff.mpr (items_match_self fun _ hv a ha => h a (.part hv ha))
  | .map _, h =>
    matches_map_iff.mpr (entries_match_self fun _ hentry a ha =>
      h a (.part (List.mem_map_of_mem hentry) ha))

theorem items_match_self : ∀ {items : List Value}, (∀ v ∈ items, ∀ a, σ.Leads v a → r a a) →
    List.Forall₂ (Matches r) items items
  | [], _ => .nil
  | v :: rest, h => by
    obtain ⟨hv, hrest⟩ := List.forall_mem_cons.mp h
    exact .cons (matches_self hv) (items_match_self hrest)

theorem entries_match_self :
    ∀ {entries : Entries}, (∀ entry ∈ entries, ∀ a, σ.Leads entry.2 a → r a a) →
    entries.Correspond (Matches r) entries
  | [], _ => .nil
  | (_, v) :: rest, h => by
    obtain ⟨hv, hrest⟩ := List.forall_mem_cons.mp h
    exact .cons ⟨rfl, matches_self hv⟩ (entries_match_self hrest)

end

end Value

theorem Cell.Matches.exists_value {r : Nat → Nat → Prop} {c d : Cell} {v : Value}
    (h : c.Matches r d) (hv : v ∈ c.values) :
    ∃ w, v.Matches r w := by
  cases h with
  | list h => exact Value.exists_of_mem_forall₂ h hv
  | map h | view h => exact Value.exists_of_mem_entries h hv

namespace Store

variable {r : Nat → Nat → Prop} {σ τ base : Store} {v w held held' : Value} {a address : Nat}
  {c cell : Cell}

/-- **Data that is the same leads to paired containers only.** -/
theorem Pairing.exists_of_leads (h : Pairing σ τ r) (hvw : v.Matches r w) (hleads : σ.Leads v a) :
    ∃ b, r a b := by
  induction hleads generalizing w with
  | here a =>
    cases hvw with
    | shared hab => exact ⟨_, hab⟩
  | part hpart _ ih =>
    obtain ⟨q, hq⟩ := hvw.exists_part hpart
    exact ih hq
  | held hcell hheld _ ih =>
    cases hvw with
    | shared hab =>
      obtain ⟨c, d, hc, -, hmatches⟩ := h.cells hab
      obtain rfl := Option.some.inj (hc.symm.trans hcell)
      obtain ⟨q, hq⟩ := hmatches.exists_value hheld
      exact ih hq

/-- The pairs that some data leads to on both sides. -/
theorem Pairing.led (h : Pairing σ τ r) (v w : Value) :
    Pairing σ τ fun a b => r a b ∧ σ.Leads v a ∧ τ.Leads w b := by
  have hkept : σ.SameFrom v σ := fun _ _ _ hcell => hcell
  have hkept' : τ.SameFrom w τ := fun _ _ _ hcell => hcell
  simpa only [false_or] using h.merge .none hkept hkept' False.elim

/-! ## §2 Holders -/

/-- **Data that leads to no more than what is held.** -/
def Covers (σ : Store) (held v : Value) : Prop := ∀ a, σ.Leads v a → σ.Leads held a

/-- **What holders do**: they go over to something that leads to no more than what they hold, make a
new container of such data, or change in place a container that they have a way to. -/
inductive Moves : Value → Store → Value → Store → Prop
  | takes {held v : Value} {σ : Store} : σ.Covers held v → Moves held σ v σ
  | makes {held : Value} {σ : Store} {cell : Cell} : (∀ v ∈ cell.values, σ.Covers held v) →
      Moves held σ (.tuple [held, .shared σ.cells.size]) (σ.alloc cell).2
  | changes {held : Value} {σ : Store} {address : Nat} {cell : Cell} : σ.Leads held address →
      (∀ v ∈ cell.values, σ.Covers held v) → Moves held σ held (σ.set address cell)

/-- **Holders kept apart** from the containers of a base: these are as they were, and nothing that
is held leads to them. -/
structure Apart (base : Store) (held : Value) (σ : Store) : Prop where
  kept : base.Extends σ
  above : ∀ a, σ.Leads held a → base.cells.size ≤ a
  present : ∀ a, σ.Leads held a → a < σ.cells.size

/-- **What data leads to** is among containers that were led to before, if what is in these now
leads to no others. -/
theorem Leads.among {p : Nat → Prop} (h : τ.Leads v a) (hv : ∀ x, σ.Leads v x → p x)
    (hcells : ∀ b c w, p b → τ.cell? b = some c → w ∈ c.values → ∀ x, σ.Leads w x → p x) : p a := by
  induction h with
  | here a => exact hv a (.here a)
  | part hpart _ ih => exact ih fun x hx => hv x (.part hpart hx)
  | held hcell hheld _ ih => exact ih (hcells _ _ _ (hv _ (.here _)) hcell hheld)

/-- What is in a container that data leads to, the data leads to as well. -/
theorem Covers.of_leads (h : σ.Leads held address) (hcell : σ.cell? address = some c)
    (hv : v ∈ c.values) : σ.Covers held v :=
  fun _ hx => h.trans (.held hcell hv hx)

namespace Apart

theorem covers (h : Apart base held σ) (hv : σ.Covers held v) : Apart base v σ :=
  ⟨h.kept, fun a ha => h.above a (hv a ha), fun a ha => h.present a (hv a ha)⟩

/-- A new container of what is held leads to itself and to what is held. -/
theorem leads_alloc (h : Apart base held σ) (hcell : ∀ v ∈ cell.values, σ.Covers held v)
    (hleads : (σ.alloc cell).2.Leads (.tuple [held, .shared σ.cells.size]) a) :
    a = σ.cells.size ∨ σ.Leads held a := by
  refine hleads.among (σ := σ) (p := fun a => a = σ.cells.size ∨ σ.Leads held a) (fun x hx => ?_)
    fun b c w hb hc hw x hx => ?_
  · cases hx with
    | part hpart hx =>
      simp only [Value.parts, List.mem_cons, List.not_mem_nil, or_false] at hpart
      rcases hpart with rfl | rfl
      · exact .inr hx
      · cases hx with
        | here => exact .inl rfl
        | part hpart _ => cases hpart
        | held hcell _ _ => exact absurd (lt_size_of_cell? hcell) (Nat.lt_irrefl _)
  · rw [cell?_alloc] at hc
    split_ifs at hc with heq
    · obtain rfl := Option.some.inj hc
      exact .inr (hcell w hw x hx)
    · exact .inr (Covers.of_leads (hb.resolve_left heq) hc hw x hx)

/-- A container that is changed in place leads on to no more than what is held. -/
theorem leads_set (h : Apart base held σ) (haddress : σ.Leads held address)
    (hcell : ∀ v ∈ cell.values, σ.Covers held v) (hleads : (σ.set address cell).Leads held a) :
    σ.Leads held a := by
  refine hleads.among (fun _ => id) fun b c w hb hc hw x hx => ?_
  by_cases heq : address = b
  · subst heq
    rw [cell?_set_self (h.present _ haddress)] at hc
    obtain rfl := Option.some.inj hc
    exact hcell w hw x hx
  · rw [cell?_set_of_ne heq] at hc
    exact Covers.of_leads hb hc hw x hx

/-- **Whatever holders do, they stay apart** from the containers that they have no way to. -/
theorem moves (h : Apart base held σ) (hmoves : Moves held σ held' τ) : Apart base held' τ := by
  cases hmoves with
  | takes hv => exact h.covers hv
  | makes hcell =>
    have hall := fun a ha => h.leads_alloc hcell (a := a) ha
    refine ⟨h.kept.trans (extends_alloc σ _), fun a ha => ?_, fun a ha => ?_⟩
    · rcases hall a ha with rfl | hold
      · exact h.kept.size_le
      · exact h.above a hold
    · rw [size_alloc]
      rcases hall a ha with rfl | hold
      · exact Nat.lt_succ_self _
      · exact Nat.lt_succ_of_lt (h.present a hold)
  | changes haddress hcell =>
    have hall := fun a ha => h.leads_set haddress hcell (a := a) ha
    refine ⟨fun b c hc => ?_, fun a ha => h.above a (hall a ha), fun a ha => ?_⟩
    · -- The container that is changed is above all of the base.
      have hne := Nat.ne_of_gt (Nat.lt_of_lt_of_le (lt_size_of_cell? hc) (h.above _ haddress))
      rw [cell?_set_of_ne hne]
      exact h.kept b c hc
    · rw [size_set]
      exact h.present a (hall a ha)

/-- **What is held pairs with itself.** -/
theorem pairing (h : Apart base held σ) : Pairing σ σ fun a b => a = b ∧ σ.Leads held a where
  cells := by
    rintro a _ ⟨rfl, ha⟩
    obtain ⟨c, hc⟩ := cell?_of_lt_size (h.present a ha)
    have hvalues : ∀ v ∈ c.values, v.Matches (fun a b => a = b ∧ σ.Leads held a) v :=
      fun v hv => Value.matches_self fun x hx => ⟨rfl, Covers.of_leads ha hc hv x hx⟩
    refine ⟨c, c, hc, hc, ?_⟩
    cases c with
    | list items => exact .list (List.forall₂_same.mpr hvalues)
    | map entries =>
      exact .map (List.forall₂_same.mpr fun entry hentry =>
        ⟨rfl, hvalues _ (List.mem_map_of_mem hentry)⟩)
    | view entries =>
      exact .view (List.forall₂_same.mpr fun entry hentry =>
        ⟨rfl, hvalues _ (List.mem_map_of_mem hentry)⟩)
  right := by
    rintro a _ _ ⟨rfl, -⟩ ⟨rfl, -⟩
    rfl
  left := by
    rintro _ _ b ⟨rfl, -⟩ ⟨rfl, -⟩
    rfl

end Apart

end Store

end Switchyard
