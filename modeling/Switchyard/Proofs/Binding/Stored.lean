import Switchyard.Dispatcher
import Switchyard.Proofs.Binding.Agreement
import Switchyard.Proofs.Binding.Rendering
import Switchyard.Value.Snapshot

/-!
# Configuration in the store

The literals of a configuration may themselves be kept in containers that can be changed. They are
put into a store once, when the configuration is made, and read each time they are needed: a step
finds what its literals show at that moment.

Main statements: what was put into a store reads as it was configured, in every store that has grown
from it (`places_binding`, `ServedTable.storedAs_stored`), a configuration of plain data reads as
itself everywhere (`Step.read_of_plain`), and steps that are made of plain configuration are of
plain data (`Step.isPlain_of_make`).
-/

namespace Switchyard

/-! ## §1 Data in the store -/

namespace Value

/-- Data within bounds is within wider ones. -/
theorem Within.mono {m n : Nat} {v : Value} (h : v.Within m) (hle : m ≤ n) : v.Within n := by
  induction h with
  | atom s => exact .atom s
  | list _ ih => exact .list ih
  | tuple _ ih => exact .tuple ih
  | map _ ih => exact .map ih
  | shared hlt => exact .shared (Nat.lt_of_lt_of_le hlt hle)

variable {shared : Nat → Value} {σ τ : Store} {depth : Nat} {opened : List Nat}

mutual

/-- Plain data shows itself. -/
theorem snapshotWith_of_plain : ∀ {v : Value}, v.Within 0 → snapshotWith shared v = v
  | .atom s, _ => rfl
  | .shared address, h => by
    cases h with
    | shared hlt => exact absurd hlt (Nat.not_lt_zero _)
  | .list items, h => by
    cases h with
    | list hitems => rw [snapshotWith, snapshotItems_of_plain hitems]
  | .tuple items, h => by
    cases h with
    | tuple hitems => rw [snapshotWith, snapshotItems_of_plain hitems]
  | .map entries, h => by
    cases h with
    | map hentries => rw [snapshotWith, snapshotEntries_of_plain hentries]

theorem snapshotItems_of_plain :
    ∀ {items : List Value}, (∀ v ∈ items, v.Within 0) → snapshotItems shared items = items
  | [], _ => rfl
  | v :: rest, h => by
    obtain ⟨hv, hrest⟩ := List.forall_mem_cons.mp h
    rw [snapshotItems, snapshotWith_of_plain hv, snapshotItems_of_plain hrest]

theorem snapshotEntries_of_plain : ∀ {entries : Entries}, (∀ entry ∈ entries, entry.2.Within 0) →
    snapshotEntries shared entries = entries
  | [], _ => rfl
  | (k, v) :: rest, h => by
    obtain ⟨hv, hrest⟩ := List.forall_mem_cons.mp h
    rw [snapshotEntries, snapshotWith_of_plain hv, snapshotEntries_of_plain hrest]

end

/-- The containers around a value were made later than everything in the store that
it was laid out in. -/
def Around (σ : Store) (depth : Nat) (opened : List Nat) : Prop :=
  σ.cells.size ≤ depth ∧ ∀ a ∈ opened, σ.cells.size ≤ a

theorem Around.of_extends (h : Around τ depth opened) (hστ : σ.Extends τ) : Around σ depth opened :=
  ⟨Nat.le_trans hστ.size_le h.1, fun a ha => Nat.le_trans hστ.size_le (h.2 a ha)⟩

/-- What is in a container that was made last has that container around it. -/
theorem Around.of_alloc {cell : Cell} (h : Around (σ.alloc cell).2 (depth + 1) opened) :
    Around σ depth opened := by
  obtain ⟨hdepth, hopened⟩ := h
  rw [Store.size_alloc] at hdepth hopened
  exact ⟨by omega, fun a ha => by have := hopened a ha; omega⟩

theorem Around.open_alloc {cell : Cell} (h : Around (σ.alloc cell).2 (depth + 1) opened) :
    Around σ depth (σ.cells.size :: opened) :=
  ⟨h.of_alloc.1, List.forall_mem_cons.mpr ⟨Nat.le_refl _, h.of_alloc.2⟩⟩

theorem Around.contains_alloc {cell : Cell} (h : Around (σ.alloc cell).2 depth opened) :
    opened.contains σ.cells.size = false := by
  rw [← Bool.not_eq_true, List.contains_iff_mem]
  intro hmem
  have := h.2 _ hmem
  rw [Store.size_alloc] at this
  omega

open Store (layOutValue layOutItems layOutEntries layOutValue_extends layOutItems_extends
  layOutEntries_extends)

mutual

/-- **Plain data that was laid out shows itself**, as long as its containers are as they were. -/
theorem snapshotWith_layOutValue :
    ∀ {v : Value} {σ : Store} {depth : Nat} {opened : List Nat}, v.Within 0 →
    (layOutValue v σ).2.Extends τ → Around (layOutValue v σ).2 depth opened →
    snapshotWith (snapshotCell τ depth opened) (layOutValue v σ).1 = v
  | .atom s, _, _, _, _, _, _ => rfl
  | .shared address, _, _, _, h, _, _ => by
    cases h with
    | shared hlt => exact absurd hlt (Nat.not_lt_zero _)
  | .tuple items, _, _, _, h, hτ, haround => by
    cases h with
    | tuple hitems => exact congrArg Value.tuple (snapshotItems_layOutItems hitems hτ haround)
  | .list items, σ, depth, _, h, hτ, haround => by
    cases h with
    | list hitems =>
      obtain _ | depth := depth
      · exact absurd haround.1 (by rw [layOutValue, Store.size_alloc]; omega)
      · -- The container of the list is the last one that was made; its items were laid out before.
        have hcell := hτ _ _ (Store.cell?_alloc_self (σ := (layOutItems items σ).2))
        simp only [layOutValue, Store.alloc_fst, snapshotWith, snapshotCell, hcell]
        exact congrArg Value.list
          (snapshotItems_layOutItems hitems ((Store.extends_alloc _ _).trans hτ) haround.of_alloc)
  | .map entries, σ, depth, _, h, hτ, haround => by
    cases h with
    | map hentries =>
      obtain _ | depth := depth
      · exact absurd haround.1 (by rw [layOutValue, Store.size_alloc]; omega)
      · have hcell := hτ _ _ (Store.cell?_alloc_self (σ := (layOutEntries entries σ).2))
        simp only [layOutValue, Store.alloc_fst, snapshotWith, snapshotCell, hcell,
          haround.contains_alloc]
        exact congrArg Value.map
          (snapshotEntries_layOutEntries hentries
            ((Store.extends_alloc _ _).trans hτ) haround.open_alloc)

theorem snapshotItems_layOutItems :
    ∀ {items : List Value} {σ : Store} {depth : Nat} {opened : List Nat},
    (∀ v ∈ items, v.Within 0) → (layOutItems items σ).2.Extends τ →
    Around (layOutItems items σ).2 depth opened →
    snapshotItems (snapshotCell τ depth opened) (layOutItems items σ).1 = items
  | [], _, _, _, _, _, _ => rfl
  | v :: rest, σ, _, _, h, hτ, haround => by
    obtain ⟨hv, hrest⟩ := List.forall_mem_cons.mp h
    have hlater : (layOutValue v σ).2.Extends (layOutItems rest (layOutValue v σ).2).2 :=
      layOutItems_extends _ _
    exact congrArg₂ List.cons (snapshotWith_layOutValue hv (hlater.trans hτ)
      (haround.of_extends hlater)) (snapshotItems_layOutItems hrest hτ haround)

theorem snapshotEntries_layOutEntries :
    ∀ {entries : Entries} {σ : Store} {depth : Nat} {opened : List Nat},
    (∀ entry ∈ entries, entry.2.Within 0) → (layOutEntries entries σ).2.Extends τ →
    Around (layOutEntries entries σ).2 depth opened →
    snapshotEntries (snapshotCell τ depth opened) (layOutEntries entries σ).1 = entries
  | [], _, _, _, _, _, _ => rfl
  | (k, v) :: rest, σ, _, _, h, hτ, haround => by
    obtain ⟨hv, hrest⟩ := List.forall_mem_cons.mp h
    have hlater : (layOutValue v σ).2.Extends (layOutEntries rest (layOutValue v σ).2).2 :=
      layOutEntries_extends _ _
    have hfirst := snapshotWith_layOutValue hv (hlater.trans hτ) (haround.of_extends hlater)
    exact congrArg₂ (fun v rest => (k, v) :: rest) hfirst
      (snapshotEntries_layOutEntries hrest hτ haround)

end

end Value

/-! ## §2 Putting things into the store -/

namespace Store

variable {α : Type} {place : α → Store → α × Store} {read : Store → α → α} {x : α} {xs : List α}

/-- **Put into a store to be read there**: putting it in only adds containers, and as long as these
are as they were, it reads as what it was. -/
structure Places (place : α → Store → α × Store) (read : Store → α → α) (x : α) : Prop where
  grows : ∀ σ : Store, σ.Extends (place x σ).2
  reads : ∀ {σ τ : Store}, (place x σ).2.Extends τ → read τ (place x σ).1 = x

/-- Puts things into a store, one after another. -/
def placeEach (place : α → Store → α × Store) : List α → Store → List α × Store
  | [], σ => ([], σ)
  | x :: rest, σ =>
    let (x, σ) := place x σ
    let (rest, σ) := placeEach place rest σ
    (x :: rest, σ)

theorem placeEach_extends (h : ∀ x ∈ xs, Places place read x) (σ : Store) :
    σ.Extends (placeEach place xs σ).2 := by
  induction xs generalizing σ with
  | nil => exact .refl σ
  | cons x rest ih =>
    obtain ⟨hx, hrest⟩ := List.forall_mem_cons.mp h
    exact (hx.grows σ).trans (ih hrest _)

/-- Things that are put in one after another are all read as what they were. -/
theorem Places.each (h : ∀ x ∈ xs, Places place read x) :
    Places (placeEach place) (fun τ => List.map (read τ)) xs where
  grows := placeEach_extends h
  reads {σ τ} hτ := by
    induction xs generalizing σ with
    | nil => rfl
    | cons x rest ih =>
      obtain ⟨hx, hrest⟩ := List.forall_mem_cons.mp h
      have hlater : (place x σ).2.Extends (placeEach place rest (place x σ).2).2 :=
        placeEach_extends hrest _
      exact congrArg₂ List.cons (hx.reads (hlater.trans hτ)) (ih hrest hτ)

/-- Plain data that is laid out reads as what it was. -/
theorem places_layOut {v : Value} (h : v.Within 0) :
    Places (fun v σ => σ.layOut v) (fun τ v => v.snapshot τ) v where
  grows σ := σ.layOut_extends v
  reads {σ τ} hτ := by
    refine Value.snapshotWith_layOutValue h hτ ⟨?_, nofun⟩
    exact Nat.le_succ_of_le hτ.size_le

end Store

/-! ## §3 Bindings -/

namespace Binding

open Store (Places)

mutual

/-- The binding with each of its literals in containers of the store. -/
def place : Binding → Store → Binding × Store
  | .literal value, σ =>
    let (value, σ) := σ.layOut value
    (.literal value, σ)
  | .expression e, σ => (.expression e, σ)
  | .list items, σ =>
    let (items, σ) := placeItems items σ
    (.list items, σ)
  | .map entries, σ =>
    let (entries, σ) := placeEntries entries σ
    (.map entries, σ)

def placeItems : List Binding → Store → List Binding × Store
  | [], σ => ([], σ)
  | b :: rest, σ =>
    let (b, σ) := place b σ
    let (rest, σ) := placeItems rest σ
    (b :: rest, σ)

def placeEntries : List (String × Binding) → Store → List (String × Binding) × Store
  | [], σ => ([], σ)
  | (k, b) :: rest, σ =>
    let (b, σ) := place b σ
    let (rest, σ) := placeEntries rest σ
    ((k, b) :: rest, σ)

end

mutual

/-- **The binding as it reads now**: each literal is what it shows in the store. -/
def read (σ : Store) : Binding → Binding
  | .literal value => .literal (value.snapshot σ)
  | .expression e => .expression e
  | .list items => .list (readItems σ items)
  | .map entries => .map (readEntries σ entries)

def readItems (σ : Store) : List Binding → List Binding
  | [] => []
  | b :: rest => read σ b :: readItems σ rest

def readEntries (σ : Store) : List (String × Binding) → List (String × Binding)
  | [] => []
  | (k, b) :: rest => (k, read σ b) :: readEntries σ rest

end

variable {p : Expression → Prop}

mutual

/-- **A binding of plain data** that is put into a store reads as what it was. -/
theorem places_binding : ∀ {b : Binding}, b.MadeOf p → Places place read b
  | .literal value, h => by
    cases h with
    | literal hvalue =>
      have hplaces := Store.places_layOut hvalue
      exact ⟨hplaces.grows, fun hτ => congrArg Binding.literal (hplaces.reads hτ)⟩
  | .expression e, _ => ⟨fun σ => .refl σ, fun _ => rfl⟩
  | .list items, h => by
    cases h with
    | list hitems =>
      have hplaces := places_items hitems
      exact ⟨hplaces.grows, fun hτ => congrArg Binding.list (hplaces.reads hτ)⟩
  | .map entries, h => by
    cases h with
    | map hentries =>
      have hplaces := places_entries hentries
      exact ⟨hplaces.grows, fun hτ => congrArg Binding.map (hplaces.reads hτ)⟩

theorem places_items :
    ∀ {items : List Binding}, (∀ b ∈ items, b.MadeOf p) → Places placeItems readItems items
  | [], _ => ⟨fun σ => .refl σ, fun _ => rfl⟩
  | b :: rest, h => by
    obtain ⟨hb, hrest⟩ := List.forall_mem_cons.mp h
    have hfirst := places_binding hb
    have hothers := places_items hrest
    exact ⟨fun σ => (hfirst.grows σ).trans (hothers.grows _),
      fun hτ => congrArg₂ List.cons (hfirst.reads ((hothers.grows _).trans hτ)) (hothers.reads hτ)⟩

theorem places_entries :
    ∀ {entries : List (String × Binding)}, (∀ entry ∈ entries, entry.2.MadeOf p) →
    Places placeEntries readEntries entries
  | [], _ => ⟨fun σ => .refl σ, fun _ => rfl⟩
  | (k, b) :: rest, h => by
    obtain ⟨hb, hrest⟩ := List.forall_mem_cons.mp h
    have hfirst := places_binding hb
    have hothers := places_entries hrest
    exact ⟨fun σ => (hfirst.grows σ).trans (hothers.grows _), fun hτ =>
      congrArg₂ (fun b rest => (k, b) :: rest) (hfirst.reads ((hothers.grows _).trans hτ))
        (hothers.reads hτ)⟩

end

mutual

/-- A binding of plain data reads as itself. -/
theorem read_of_plain {σ : Store} : ∀ {b : Binding}, b.MadeOf p → b.read σ = b
  | .literal value, h => by
    cases h with
    | literal hvalue => exact congrArg Binding.literal (Value.snapshotWith_of_plain hvalue)
  | .expression e, _ => rfl
  | .list items, h => by
    cases h with
    | list hitems => exact congrArg Binding.list (readItems_of_plain hitems)
  | .map entries, h => by
    cases h with
    | map hentries => exact congrArg Binding.map (readEntries_of_plain hentries)

theorem readItems_of_plain {σ : Store} :
    ∀ {items : List Binding}, (∀ b ∈ items, b.MadeOf p) → readItems σ items = items
  | [], _ => rfl
  | b :: rest, h => by
    obtain ⟨hb, hrest⟩ := List.forall_mem_cons.mp h
    rw [readItems, read_of_plain hb, readItems_of_plain hrest]

theorem readEntries_of_plain {σ : Store} :
    ∀ {entries : List (String × Binding)}, (∀ entry ∈ entries, entry.2.MadeOf p) →
    readEntries σ entries = entries
  | [], _ => rfl
  | (k, b) :: rest, h => by
    obtain ⟨hb, hrest⟩ := List.forall_mem_cons.mp h
    rw [readEntries, read_of_plain hb, readEntries_of_plain hrest]

end

/-! ## §4 What is received -/

/-- **What is received for a binding**, in containers from `n` on: for a literal its data, for an
expression whatever it has found, and for a list or a map what is received for its parts. Keys that
are the same text are one key. -/
inductive Received (n : Nat) (τ : Store) : Binding → Value → Prop
  | literal {value v : Value} : LaidOut n τ v value → Received n τ (.literal value) v
  | expression (e : Expression) (v : Value) : Received n τ (.expression e) v
  | list {items : List Binding} {values : List Value} {address : Nat} :
      n ≤ address → τ.cell? address = some (.list values) → items.length = values.length →
      (∀ pair ∈ items.zip values, Received n τ pair.1 pair.2) →
      Received n τ (.list items) (.shared address)
  | map {entries : List (String × Binding)} {pairs : Entries} {address : Nat} :
      n ≤ address → τ.cell? address = some (.map (.ofPairs pairs)) → entries.length = pairs.length →
      (∀ pair ∈ entries.zip pairs, .text pair.1.1 = pair.2.1) →
      (∀ pair ∈ entries.zip pairs, Received n τ pair.1.2 pair.2.2) →
      Received n τ (.map entries) (.shared address)

theorem Received.extends {n : Nat} {τ ρ : Store} {b : Binding} {v : Value} (h : Received n τ b v)
    (hτ : τ.Extends ρ) : Received n ρ b v := by
  induction h with
  | literal h => exact .literal (h.extends hτ)
  | expression e v => exact .expression e v
  | list hn hcell hlength _ ih => exact .list hn (hτ _ _ hcell) hlength ih
  | map hn hcell hlength hkeys _ ih => exact .map hn (hτ _ _ hcell) hlength hkeys ih

section

variable {context : Value} {n : Nat}

mutual

/-- **Resolving** hands out the data of literals, in containers that were not there before. -/
theorem resolve_received :
    ∀ {b : Binding} {σ τ : Store} {v : Value}, b.MadeOf p → n ≤ σ.cells.size →
    resolve context b σ = .ok (v, τ) → Received n τ b v
  | .literal value, σ, _, _, hb, hn, h => by
    cases hb with
    | literal hvalue =>
      obtain ⟨rfl, rfl⟩ := Prod.mk.inj (Except.ok.inj h)
      exact .literal (Store.layOutValue_laidOut value σ (hvalue.mono (Nat.zero_le n)) hn)
  | .expression e, _, _, v, _, _, _ => .expression e v
  | .list items, σ, _, _, hb, hn, h => by
    cases hb with
    | list hitems =>
      obtain ⟨⟨values, ρ⟩, hvalues, h⟩ := bind_ok_iff.mp h
      obtain ⟨rfl, rfl⟩ := Prod.mk.inj (Except.ok.inj h)
      obtain ⟨hlength, hzip⟩ := List.forall₂_iff_zip.mp (resolveItems_received hitems hn hvalues)
      have hgrown := Nat.le_trans hn (resolveItems_extends hvalues).size_le
      exact .list hgrown Store.cell?_alloc_self hlength fun pair hpair =>
        (hzip hpair).extends (Store.extends_alloc _ _)
  | .map entries, σ, _, _, hb, hn, h => by
    cases hb with
    | map hentries =>
      obtain ⟨⟨pairs, ρ⟩, hpairs, h⟩ := bind_ok_iff.mp h
      obtain ⟨rfl, rfl⟩ := Prod.mk.inj (Except.ok.inj h)
      obtain ⟨hlength, hzip⟩ := List.forall₂_iff_zip.mp (resolveEntries_received hentries hn hpairs)
      have hgrown := Nat.le_trans hn (resolveEntries_extends hpairs).size_le
      exact .map hgrown Store.cell?_alloc_self hlength (fun pair hpair => (hzip hpair).1)
        fun pair hpair => (hzip hpair).2.extends (Store.extends_alloc _ _)

theorem resolveItems_received :
    ∀ {items : List Binding} {σ τ : Store} {values : List Value}, (∀ b ∈ items, b.MadeOf p) →
    n ≤ σ.cells.size → resolveItems context items σ = .ok (values, τ) →
    List.Forall₂ (Received n τ) items values
  | [], _, _, _, _, _, h => by
    obtain ⟨rfl, rfl⟩ := Prod.mk.inj (Except.ok.inj h)
    exact .nil
  | b :: rest, _, _, _, hb, hn, h => by
    obtain ⟨hfirst, hrest⟩ := List.forall_mem_cons.mp hb
    obtain ⟨⟨v, ρ⟩, hv, h⟩ := bind_ok_iff.mp h
    obtain ⟨⟨vs, ρ'⟩, hvs, h⟩ := bind_ok_iff.mp h
    obtain ⟨rfl, rfl⟩ := Prod.mk.inj (Except.ok.inj h)
    have hgrown := Nat.le_trans hn (resolve_extends hv).size_le
    exact .cons ((resolve_received hfirst hn hv).extends (resolveItems_extends hvs))
      (resolveItems_received hrest hgrown hvs)

theorem resolveEntries_received :
    ∀ {entries : List (String × Binding)} {σ τ : Store} {pairs : Entries},
    (∀ entry ∈ entries, entry.2.MadeOf p) → n ≤ σ.cells.size →
    resolveEntries context entries σ = .ok (pairs, τ) →
    List.Forall₂ (fun entry pair => .text entry.1 = pair.1 ∧ Received n τ entry.2 pair.2) entries
      pairs
  | [], _, _, _, _, _, h => by
    obtain ⟨rfl, rfl⟩ := Prod.mk.inj (Except.ok.inj h)
    exact .nil
  | (k, b) :: rest, _, _, _, hb, hn, h => by
    obtain ⟨hfirst, hrest⟩ := List.forall_mem_cons.mp hb
    obtain ⟨⟨v, ρ⟩, hv, h⟩ := bind_ok_iff.mp h
    obtain ⟨⟨vs, ρ'⟩, hvs, h⟩ := bind_ok_iff.mp h
    obtain ⟨rfl, rfl⟩ := Prod.mk.inj (Except.ok.inj h)
    have hgrown := Nat.le_trans hn (resolve_extends hv).size_le
    exact .cons ⟨rfl, (resolve_received hfirst hn hv).extends (resolveEntries_extends hvs)⟩
      (resolveEntries_received hrest hgrown hvs)

end

end

/-! ## §5 Compiled configuration -/

section

open Compilation (Reads)

variable {cache : SourceCache}

/-- A binding of plain data, with expressions that can be read. -/
abbrev IsPlain (b : Binding) : Prop := b.MadeOf fun e => e.root.Atomic

/-- A source that is read becomes an expression of plain data. -/
theorem readCached_plain (hcache : cache.Sound Expression.parse) (source : String) :
    Reads [source] ((readCached source >>= fun e => Pure.pure (Binding.expression e)) cache)
      IsPlain :=
  .source hcache fun _ he => .expression (Expression.atomic_of_parse he)

mutual

/-- **Plain configuration is compiled to bindings of plain data.** -/
theorem compile_plain :
    ∀ {raw : Value} {cache : SourceCache}, raw.Within 0 → cache.Sound Expression.parse →
    Reads (sources raw) (compile raw cache) IsPlain
  | .atom s, _, h, hcache => by
    cases s with
    | marker source => exact readCached_plain hcache source
    | null | bool _ | int _ | float _ | text _ | bytes _ | foreign _ _ =>
      exact .pure hcache (.literal h)
  | .shared _, _, h, _ => by
    cases h with
    | shared hlt => exact absurd hlt (Nat.not_lt_zero _)
  | .list items, _, h, hcache => by
    simp only [sources, compile]
    refine (compileItems_plain h.items hcache).map fun bs hbs => ?_
    split_ifs
    · exact .literal h
    · exact .list hbs
  | .tuple items, _, h, hcache => by
    simp only [sources, compile]
    refine (compileItems_plain h.parts hcache).map fun bs hbs => ?_
    split_ifs
    · exact .literal h
    · exact .list hbs
  | .map entries, _, h, hcache => by
    cases hmarked : markedSource? (.map entries) with
    | some source =>
      simp only [sources, compile, hmarked]
      exact readCached_plain hcache source
    | none =>
      simp only [sources, compile, hmarked]
      refine (compileEntries_plain h.entries hcache).map fun bs hbs => ?_
      split_ifs
      · exact .literal h
      · exact .map hbs

theorem compileItems_plain :
    ∀ {items : List Value} {cache : SourceCache}, (∀ v ∈ items, v.Within 0) →
    cache.Sound Expression.parse → Reads (sourcesOfItems items) (compileItems items cache) fun bs =>
      ∀ b ∈ bs, b.IsPlain
  | [], _, _, hcache => .pure hcache nofun
  | v :: rest, _, h, hcache => by
    obtain ⟨hv, hrest⟩ := List.forall_mem_cons.mp h
    simp only [sourcesOfItems, compileItems]
    refine (compile_plain hv hcache).bind fun b cache' hb hcache' => ?_
    exact (compileItems_plain hrest hcache').map fun bs hbs => List.forall_mem_cons.mpr ⟨hb, hbs⟩

theorem compileEntries_plain :
    ∀ {entries : Entries} {cache : SourceCache}, (∀ entry ∈ entries, entry.2.Within 0) →
    cache.Sound Expression.parse →
    Reads (sourcesOfEntries entries) (compileEntries entries cache) fun bs =>
      ∀ entry ∈ bs, entry.2.IsPlain
  | [], _, _, hcache => .pure hcache nofun
  | (k, v) :: rest, _, h, hcache => by
    obtain ⟨hv, hrest⟩ := List.forall_mem_cons.mp h
    simp only [sourcesOfEntries, compileEntries]
    refine (compile_plain hv hcache).bind fun b cache' hb hcache' => ?_
    exact (compileEntries_plain hrest hcache').map fun bs hbs => List.forall_mem_cons.mpr ⟨hb, hbs⟩

end

end

end Binding

/-! ## §6 Tables -/

open Store (Places)

/-- **A step of plain data**: its literals are plain data, and so are those in its expressions. -/
def Step.IsPlain (step : Step) : Prop := (Binding.map step.bindings).IsPlain

namespace Step

variable {step : Step} {σ : Store}

theorem IsPlain.entries (h : step.IsPlain) :
    ∀ entry ∈ step.bindings, entry.2.MadeOf fun e => e.root.Atomic := by
  cases h with
  | map hentries => exact hentries

/-- **Steps that are made of plain configuration** are steps of plain data. -/
theorem isPlain_of_make {name uses summary : String} {config : Value} {cache cache' : SourceCache}
    (hconfig : config.Within 0) (hcache : cache.Sound Expression.parse)
    (h : make name uses config summary cache = (.ok step, cache')) : step.IsPlain := by
  obtain ⟨bindings, between, hrecord, h⟩ := Compilation.run_bind_ok h
  cases h
  unfold Binding.compileRecord at hrecord
  split at hrecord
  · have hreads := Binding.compileEntries_plain hconfig.entries hcache
    rw [hrecord] at hreads
    exact .map hreads.1.of_ok.2
  · -- Configuration that is no map is refused, or taken for none.
    split_ifs at hrecord
    · cases hrecord
    · cases hrecord
      exact .map nofun

/-- The step with its literals in containers of the store. -/
def place (step : Step) (σ : Store) : Step × Store :=
  let (bindings, σ) := Binding.placeEntries step.bindings σ
  ({ step with bindings }, σ)

/-- **The step as it reads now.** -/
def read (σ : Store) (step : Step) : Step :=
  { step with bindings := Binding.readEntries σ step.bindings }

theorem places (h : step.IsPlain) : Places place read step := by
  have hbindings := Binding.places_entries h.entries
  exact ⟨hbindings.grows, fun hτ => by rw [read, place, hbindings.reads hτ]⟩

/-- **A step of plain data** reads as itself everywhere. -/
theorem read_of_plain (h : step.IsPlain) : step.read σ = step := by
  rw [read, Binding.readEntries_of_plain h.entries]

end Step

namespace Pipeline

variable {pipeline : Pipeline}

def IsPlain (pipeline : Pipeline) : Prop := ∀ step ∈ pipeline.steps, step.IsPlain

def place (pipeline : Pipeline) (σ : Store) : Pipeline × Store :=
  let (steps, σ) := Store.placeEach Step.place pipeline.steps σ
  ({ pipeline with steps }, σ)

/-- The pipeline as it reads now. -/
def read (σ : Store) (pipeline : Pipeline) : Pipeline :=
  { pipeline with steps := pipeline.steps.map (Step.read σ) }

theorem places (h : pipeline.IsPlain) : Places place read pipeline := by
  have hsteps := Places.each fun step hstep => Step.places (h step hstep)
  exact ⟨hsteps.grows, fun hτ => by rw [read, place, hsteps.reads hτ]⟩

theorem read_of_plain {σ : Store} (h : pipeline.IsPlain) : pipeline.read σ = pipeline := by
  have hstep : ∀ step ∈ pipeline.steps, step.read σ = id step :=
    fun step hstep => Step.read_of_plain (h step hstep)
  rw [read, List.map_congr_left hstep, List.map_id]

end Pipeline

/-- An entry of a table of pipelines with the literals of its pipeline in
containers of the store. -/
def placeEntry (entry : Route × Pipeline) (σ : Store) : (Route × Pipeline) × Store :=
  let (pipeline, σ) := entry.2.place σ
  ((entry.1, pipeline), σ)

def readEntry (σ : Store) (entry : Route × Pipeline) : Route × Pipeline := (entry.1, entry.2.read σ)

namespace ServedTable

variable {table : ServedTable} {route : Route} {pipeline : Pipeline} {σ : Store}

/-- **A table of plain data**: the literals of all its steps are. -/
def IsPlain (table : ServedTable) : Prop := ∀ entry ∈ table.pipelines.pipelines, entry.2.IsPlain

/-- A pipeline that is found is one of the table. -/
theorem exists_entry_of_find? (h : table.pipelines.find? route = some pipeline) :
    ∃ entry ∈ table.pipelines.pipelines, entry.2 = pipeline := by
  obtain ⟨entry, hfind, rfl⟩ := Option.map_eq_some_iff.mp h
  exact ⟨entry, List.mem_of_find?_eq_some hfind, rfl⟩

theorem IsPlain.of_find? (h : table.IsPlain) (hfind : table.pipelines.find? route = some pipeline) :
    pipeline.IsPlain := by
  obtain ⟨entry, hentry, rfl⟩ := exists_entry_of_find? hfind
  exact h entry hentry

def place (table : ServedTable) (σ : Store) : ServedTable × Store :=
  let (pipelines, σ) := Store.placeEach placeEntry table.pipelines.pipelines σ
  ({ table with pipelines := { table.pipelines with pipelines } }, σ)

/-- **The table as it reads now.** -/
def read (σ : Store) (table : ServedTable) : ServedTable :=
  { table with
    pipelines := { table.pipelines with pipelines := table.pipelines.pipelines.map (readEntry σ) } }

theorem places (h : table.IsPlain) : Places place read table := by
  have hentry : ∀ entry ∈ table.pipelines.pipelines, Places placeEntry readEntry entry := by
    intro entry hentry
    have hpipeline := Pipeline.places (h entry hentry)
    exact ⟨hpipeline.grows, fun hτ => by rw [readEntry, placeEntry, hpipeline.reads hτ]⟩
  have hentries := Places.each hentry
  exact ⟨hentries.grows, fun hτ => by rw [read, place, hentries.reads hτ]⟩

/-- A table of plain data reads as itself everywhere. -/
theorem read_of_plain (h : table.IsPlain) : table.read σ = table := by
  have hentry : ∀ entry ∈ table.pipelines.pipelines, readEntry σ entry = id entry :=
    fun entry hentry => by rw [readEntry, Pipeline.read_of_plain (h entry hentry), id]
  rw [read, List.map_congr_left hentry, List.map_id]

/-- **A table that was put into a store**: as long as the containers there are as they were, it
reads as it was configured. -/
def StoredAs (base : Store) (stored table : ServedTable) : Prop :=
  ∀ σ, base.Extends σ → stored.read σ = table

/-- The table whose configuration is kept in a store of its own. -/
def stored (table : ServedTable) : ServedTable := (table.place .empty).1

/-- **The containers of the configuration**, and nothing else. -/
def base (table : ServedTable) : Store := (table.place .empty).2

/-- **What was put into the store** reads as it was configured. -/
theorem storedAs_stored (h : table.IsPlain) : StoredAs table.base table.stored table :=
  fun _ hσ => (places h).reads hσ

/-- A table of plain data needs no containers. -/
theorem storedAs_self (h : table.IsPlain) (base : Store) : StoredAs base table table :=
  fun _ _ => read_of_plain h

/-- A table reads route by route. -/
theorem find?_read (table : ServedTable) (σ : Store) (route : Route) :
    (table.read σ).pipelines.find? route = (table.pipelines.find? route).map (Pipeline.read σ) := by
  simp only [PipelineTable.find?, RouteMap.find?, read, List.find?_map, Option.map_map]
  rfl

namespace StoredAs

variable {base : Store} {stored : ServedTable}

theorem gate_eq (h : StoredAs base stored table) : stored.gate = table.gate := by
  rw [← h base (.refl _)]
  rfl

theorem units_eq (h : StoredAs base stored table) :
    stored.pipelines.units = table.pipelines.units := by
  rw [← h base (.refl _)]
  rfl

/-- **A pipeline that was put into a store** reads as the one that was configured for its route. -/
theorem rel_find? (h : StoredAs base stored table) (route : Route) :
    Option.Rel (fun pipeline configured => ∀ σ, base.Extends σ → pipeline.read σ = configured)
      (stored.pipelines.find? route) (table.pipelines.find? route) := by
  have hread : ∀ σ, base.Extends σ → (stored.pipelines.find? route).map (Pipeline.read σ) =
      table.pipelines.find? route :=
    fun σ hσ => by rw [← find?_read, h σ hσ]
  cases hfind : stored.pipelines.find? route with
  | none =>
    rw [← hread base (.refl _), hfind]
    exact .none
  | some pipeline =>
    rw [← hread base (.refl _), hfind]
    refine .some fun σ hσ => ?_
    have hboth := (hread σ hσ).trans (hread base (.refl _)).symm
    rw [hfind] at hboth
    exact Option.some.inj hboth

end StoredAs

end ServedTable

end Switchyard
