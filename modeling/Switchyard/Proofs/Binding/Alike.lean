import Switchyard.Proofs.Binding.Rendering

/-!
# Results that show the same

A value shows a tree of data wherever it is kept: in itself, in containers of its own, or in
containers that were there before. Two results are *alike* if there is a tree that both show, the
same kinds of sequences and the same keys in the same order included; or if both are the same error.

Main statements: laid-out data shows what the data shows (`LaidOut.shows_iff`), and on data likeness
goes part by part (`alikeIn_list_iff`, `alikeIn_map_iff`).
-/

namespace Switchyard

/-! ## §1 What a value shows -/

/-- **What a value shows** in the store `τ`: a tree of data. Containers are looked into; those at
addresses below `n` may also stand for themselves. -/
inductive Shows (n : Nat) (τ : Store) : Value → Value → Prop
  | atom (s : Scalar) : Shows n τ (.atom s) (.atom s)
  | kept {address : Nat} : address < n → Shows n τ (.shared address) (.shared address)
  | list {vs ts : List Value} :
      vs.length = ts.length → (∀ pair ∈ vs.zip ts, Shows n τ pair.1 pair.2) →
      Shows n τ (.list vs) (.list ts)
  | tuple {vs ts : List Value} :
      vs.length = ts.length → (∀ pair ∈ vs.zip ts, Shows n τ pair.1 pair.2) →
      Shows n τ (.tuple vs) (.tuple ts)
  | map {es fs : Entries} :
      es.length = fs.length → (∀ pair ∈ es.zip fs, pair.1.1 = pair.2.1) →
      (∀ pair ∈ es.zip fs, Shows n τ pair.1.2 pair.2.2) → Shows n τ (.map es) (.map fs)
  | listAt {address : Nat} {vs : List Value} {t : Value} :
      τ.cell? address = some (.list vs) → Shows n τ (.list vs) t → Shows n τ (.shared address) t
  | mapAt {address : Nat} {es : Entries} {t : Value} :
      τ.cell? address = some (.map es) → Shows n τ (.map es) t → Shows n τ (.shared address) t
  | viewAt {address : Nat} {es : Entries} {t : Value} :
      τ.cell? address = some (.view es) → Shows n τ (.map es) t → Shows n τ (.shared address) t

variable {n : Nat} {σ τ : Store} {v t : Value} {vs ts xs ys : List Value}
  {es fs held written : Entries}

theorem shows_list_iff :
    Shows n τ (.list vs) t ↔ ∃ ts, t = .list ts ∧ List.Forall₂ (Shows n τ) vs ts := by
  constructor
  · rintro (_ | _ | @⟨_, ts, hlength, hzip⟩)
    exact ⟨ts, rfl, List.forall₂_iff_zip.mpr ⟨hlength, fun hpair => hzip _ hpair⟩⟩
  · rintro ⟨ts, rfl, h⟩
    obtain ⟨hlength, hzip⟩ := List.forall₂_iff_zip.mp h
    exact .list hlength fun pair hpair => hzip hpair

theorem shows_tuple_iff :
    Shows n τ (.tuple vs) t ↔ ∃ ts, t = .tuple ts ∧ List.Forall₂ (Shows n τ) vs ts := by
  constructor
  · rintro (_ | _ | _ | @⟨_, ts, hlength, hzip⟩)
    exact ⟨ts, rfl, List.forall₂_iff_zip.mpr ⟨hlength, fun hpair => hzip _ hpair⟩⟩
  · rintro ⟨ts, rfl, h⟩
    obtain ⟨hlength, hzip⟩ := List.forall₂_iff_zip.mp h
    exact .tuple hlength fun pair hpair => hzip hpair

theorem shows_map_iff :
    Shows n τ (.map es) t ↔ ∃ fs, t = .map fs ∧ es.Correspond (Shows n τ) fs := by
  constructor
  · rintro (_ | _ | _ | _ | @⟨_, fs, hlength, hkeys, hzip⟩)
    exact ⟨fs, rfl, List.forall₂_iff_zip.mpr ⟨hlength, fun hpair => ⟨hkeys _ hpair, hzip _ hpair⟩⟩⟩
  · rintro ⟨fs, rfl, h⟩
    obtain ⟨hlength, hzip⟩ := List.forall₂_iff_zip.mp h
    exact .map hlength (fun pair hpair => (hzip hpair).1) fun pair hpair => (hzip hpair).2

/-- Data within bounds shows itself. -/
theorem Value.Within.shows (h : v.Within n) : Shows n τ v v := by
  induction h with
  | atom s => exact .atom s
  | shared hlt => exact .kept hlt
  | list _ ih => exact shows_list_iff.mpr ⟨_, rfl, List.forall₂_same.mpr ih⟩
  | tuple _ ih => exact shows_tuple_iff.mpr ⟨_, rfl, List.forall₂_same.mpr ih⟩
  | map _ ih =>
    exact shows_map_iff.mpr ⟨_, rfl, List.forall₂_same.mpr fun entry hentry =>
      ⟨rfl, ih entry hentry⟩⟩

/-- What data shows it still shows in a store that grew. -/
theorem Shows.extends (h : Shows n σ v t) (hτ : σ.Extends τ) : Shows n τ v t := by
  induction h with
  | atom s => exact .atom s
  | kept hlt => exact .kept hlt
  | list hlength _ ih => exact .list hlength ih
  | tuple hlength _ ih => exact .tuple hlength ih
  | map hlength hkeys _ ih => exact .map hlength hkeys ih
  | listAt hcell _ ih => exact .listAt (hτ _ _ hcell) ih
  | mapAt hcell _ ih => exact .mapAt (hτ _ _ hcell) ih
  | viewAt hcell _ ih => exact .viewAt (hτ _ _ hcell) ih

/-- In a store that grew, data within bounds shows nothing that it did not show before. -/
theorem Shows.of_extends (h : Shows σ.cells.size τ v t) (hσ : σ.Closed) (hτ : σ.Extends τ)
    (hv : v.Within σ.cells.size) : Shows σ.cells.size σ v t := by
  -- A cell that data within bounds refers to was there before, with the same in it.
  have hcell : ∀ {address cell}, (Value.shared address).Within σ.cells.size →
      τ.cell? address = some cell →
      σ.cell? address = some cell ∧ cell.Within σ.cells.size := by
    intro address cell hv hcell
    cases hv with
    | shared hlt =>
      obtain ⟨cell', hcell'⟩ := Store.cell?_of_lt_size hlt
      obtain rfl := Option.some.inj ((hτ _ _ hcell').symm.trans hcell)
      exact ⟨hcell', hσ _ _ hcell'⟩
  induction h with
  | atom s => exact .atom s
  | kept hlt => exact .kept hlt
  | list hlength _ ih =>
    exact .list hlength fun pair hpair => ih pair hpair (hv.items _ (List.of_mem_zip hpair).1)
  | tuple hlength _ ih =>
    exact .tuple hlength fun pair hpair => ih pair hpair (hv.parts _ (List.of_mem_zip hpair).1)
  | map hlength hkeys _ ih =>
    exact .map hlength hkeys fun pair hpair =>
      ih pair hpair (hv.entries _ (List.of_mem_zip hpair).1)
  | listAt hat _ ih =>
    obtain ⟨hat', hwithin⟩ := hcell hv hat
    exact .listAt hat' (ih (.list hwithin))
  | mapAt hat _ ih =>
    obtain ⟨hat', hwithin⟩ := hcell hv hat
    exact .mapAt hat' (ih (.map hwithin))
  | viewAt hat _ ih =>
    obtain ⟨hat', hwithin⟩ := hcell hv hat
    exact .viewAt hat' (ih (.map hwithin))

/-- A list in a container of its own shows what the list does. -/
theorem shows_listAt_iff {address : Nat} (hfresh : n ≤ address)
    (hcell : τ.cell? address = some (.list vs)) :
    Shows n τ (.shared address) t ↔ Shows n τ (.list vs) t := by
  constructor
  · intro h
    cases h with
    | kept hlt => omega
    | listAt hcell' h =>
      cases hcell.symm.trans hcell'
      exact h
    | mapAt hcell' _ | viewAt hcell' _ => cases hcell.symm.trans hcell'
  · exact .listAt hcell

/-- A map in a container of its own shows what the map does. -/
theorem shows_mapAt_iff {address : Nat} (hfresh : n ≤ address)
    (hcell : τ.cell? address = some (.map es)) :
    Shows n τ (.shared address) t ↔ Shows n τ (.map es) t := by
  constructor
  · intro h
    cases h with
    | kept hlt => omega
    | mapAt hcell' h =>
      cases hcell.symm.trans hcell'
      exact h
    | listAt hcell' _ | viewAt hcell' _ => cases hcell.symm.trans hcell'
  · exact .mapAt hcell

/-- Lists whose members are related to the same are related to the same. -/
theorem forall₂_congr_left {α β γ : Type} {r : α → γ → Prop} {s : β → γ → Prop}
    {as : List α} {bs : List β} (h : List.Forall₂ (fun a b => ∀ c, r a c ↔ s b c) as bs)
    (cs : List γ) :
    List.Forall₂ r as cs ↔ List.Forall₂ s bs cs := by
  induction h generalizing cs with
  | nil => simp
  | @cons a b as bs hab _ ih =>
    cases cs with
    | nil => simp
    | cons c cs => rw [List.forall₂_cons, List.forall₂_cons, hab c, ih cs]

/-- **Data laid out** shows what the data shows: the containers of its own do not matter. -/
theorem LaidOut.shows_iff (h : LaidOut σ.cells.size τ v t) (hσ : σ.Closed) (hτ : σ.Extends τ)
    (shown : Value) : Shows σ.cells.size τ v shown ↔ Shows σ.cells.size σ t shown := by
  induction h generalizing shown with
  | kept hv => exact ⟨fun h => h.of_extends hσ hτ hv, fun h => h.extends hτ⟩
  | tuple hlength _ ih =>
    have hall := List.forall₂_iff_zip.mpr ⟨hlength, fun hpair => ih _ hpair⟩
    simp only [shows_tuple_iff, forall₂_congr_left hall]
  | list hfresh hcell hlength _ ih =>
    have hall := List.forall₂_iff_zip.mpr ⟨hlength, fun hpair => ih _ hpair⟩
    simp only [shows_listAt_iff hfresh hcell, shows_list_iff, forall₂_congr_left hall]
  | @map held written address hfresh hcell hlength hkeys _ ih =>
    have hall : List.Forall₂ (fun p q => ∀ entry : Scalar × Value,
        (p.1 = entry.1 ∧ Shows σ.cells.size τ p.2 entry.2) ↔
          (q.1 = entry.1 ∧ Shows σ.cells.size σ q.2 entry.2)) held written :=
      List.forall₂_iff_zip.mpr ⟨hlength,
        fun hpair entry => by rw [hkeys _ hpair, ih _ hpair entry.2]⟩
    simp only [shows_mapAt_iff hfresh hcell, shows_map_iff, Entries.Correspond,
      forall₂_congr_left hall]

/-! ## §2 Alike data -/

/-- **Alike data**: values of a store that show the same tree. -/
def AlikeIn (σ : Store) (v w : Value) : Prop :=
  ∃ t, Shows σ.cells.size σ v t ∧ Shows σ.cells.size σ w t

theorem alikeIn_refl (h : v.Within σ.cells.size) : AlikeIn σ v v := ⟨v, h.shows, h.shows⟩

/-- Lists whose members are pairwise related to something are related to one list. -/
theorem exists_forall₂_iff {α γ : Type} {r : α → γ → Prop} {as bs : List α} :
    (∃ cs, List.Forall₂ r as cs ∧ List.Forall₂ r bs cs) ↔
      List.Forall₂ (fun a b => ∃ c, r a c ∧ r b c) as bs := by
  constructor
  · rintro ⟨cs, ha, hb⟩
    induction ha generalizing bs with
    | nil =>
      cases hb
      exact .nil
    | cons hac _ ih =>
      cases hb with
      | cons hbc hb => exact .cons ⟨_, hac, hbc⟩ (ih hb)
  · intro h
    induction h with
    | nil => exact ⟨[], .nil, .nil⟩
    | cons hab _ ih =>
      obtain ⟨c, hac, hbc⟩ := hab
      obtain ⟨cs, ha, hb⟩ := ih
      exact ⟨c :: cs, .cons hac ha, .cons hbc hb⟩

/-- Lists are alike exactly if their items are. -/
theorem alikeIn_list_iff : AlikeIn σ (.list xs) (.list ys) ↔ List.Forall₂ (AlikeIn σ) xs ys := by
  refine Iff.trans ?_ exists_forall₂_iff
  simp only [AlikeIn, shows_list_iff]
  constructor
  · rintro ⟨_, ⟨ts, rfl, hx⟩, ts', heq, hy⟩
    obtain rfl := Value.list.inj heq
    exact ⟨ts, hx, hy⟩
  · rintro ⟨ts, hx, hy⟩
    exact ⟨_, ⟨ts, rfl, hx⟩, ts, rfl, hy⟩

/-- Maps are alike exactly if they have the same keys in the same order and alike values. -/
theorem alikeIn_map_iff : AlikeIn σ (.map es) (.map fs) ↔ es.Correspond (AlikeIn σ) fs := by
  have hentries : es.Correspond (AlikeIn σ) fs ↔ ∃ gs : Entries,
      es.Correspond (Shows σ.cells.size σ) gs ∧ fs.Correspond (Shows σ.cells.size σ) gs := by
    have hpair : ∀ p q : Scalar × Value, (∃ c : Scalar × Value,
        (p.1 = c.1 ∧ Shows σ.cells.size σ p.2 c.2) ∧
        (q.1 = c.1 ∧ Shows σ.cells.size σ q.2 c.2)) ↔ p.1 = q.1 ∧ AlikeIn σ p.2 q.2 := by
      intro p q
      constructor
      · rintro ⟨c, ⟨hp, hshows⟩, hq, hshows'⟩
        exact ⟨hp.trans hq.symm, c.2, hshows, hshows'⟩
      · rintro ⟨hkeys, t, hshows, hshows'⟩
        exact ⟨(q.1, t), ⟨hkeys, hshows⟩, rfl, hshows'⟩
    simp only [Entries.Correspond, exists_forall₂_iff, hpair]
  rw [hentries]
  simp only [AlikeIn, shows_map_iff]
  constructor
  · rintro ⟨_, ⟨gs, rfl, hx⟩, gs', heq, hy⟩
    obtain rfl := Value.map.inj heq
    exact ⟨gs, hx, hy⟩
  · rintro ⟨gs, hx, hy⟩
    exact ⟨_, ⟨gs, rfl, hx⟩, gs, rfl, hy⟩

/-- A tuple is not like a list. -/
theorem not_alikeIn_tuple_list : ¬ AlikeIn σ (.tuple xs) (.list ys) := by
  rintro ⟨t, htuple, hlist⟩
  obtain ⟨ts, rfl, -⟩ := shows_tuple_iff.mp htuple
  obtain ⟨ts', heq, -⟩ := shows_list_iff.mp hlist
  cases heq

/-! ## §3 Alike results -/

/-- **Alike results**: the same error, or values that show the same tree, each in its own store.
Addresses below `n` stand for what both stores have there. -/
inductive Alike (n : Nat) : Except Raised (Value × Store) → Except Raised (Value × Store) → Prop
  | failed (e : Raised) : Alike n (.error e) (.error e)
  | shown {v w t : Value} {τ ρ : Store} :
      Shows n τ v t → Shows n ρ w t → Alike n (.ok (v, τ)) (.ok (w, ρ))

/-- Results that hold data are alike exactly if the data is. -/
theorem LaidOut.alike_iff {ρ : Store} {w u : Value} (hσ : σ.Closed)
    (hv : LaidOut σ.cells.size τ v t) (hw : LaidOut σ.cells.size ρ w u) (hτ : σ.Extends τ)
    (hρ : σ.Extends ρ) :
    Alike σ.cells.size (.ok (v, τ)) (.ok (w, ρ)) ↔ AlikeIn σ t u := by
  constructor
  · rintro (_ | @⟨_, _, shown, _, _, hshows, hshows'⟩)
    exact ⟨shown, (hv.shows_iff hσ hτ shown).mp hshows, (hw.shows_iff hσ hρ shown).mp hshows'⟩
  · rintro ⟨shown, hshows, hshows'⟩
    exact .shown ((hv.shows_iff hσ hτ shown).mpr hshows) ((hw.shows_iff hσ hρ shown).mpr hshows')

end Switchyard
