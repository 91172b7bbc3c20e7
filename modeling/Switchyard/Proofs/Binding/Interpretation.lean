import Switchyard.Binding.Compile
import Switchyard.Proofs.Expression.Closed
import Switchyard.Proofs.Value.Record
import Mathlib.Data.List.Forall2

/-!
# Direct interpretation of configuration

What a raw configuration stands for in a context, told without bindings: every marked source is read
and evaluated where it stands, and everything around it is laid out afresh.

Main statement: interpretation fails as the first marked source does that fails, and else replaces
every marker by its value and nothing else (`interpret_spec`).
-/

namespace Switchyard

/-! ## §1 Raw configuration -/

/-- **Raw configuration**: scalars and markers, lists, and maps whose keys are
texts, each there once. -/
inductive Value.IsConfig : Value → Prop
  | atom (s : Scalar) : IsConfig (.atom s)
  | list {items : List Value} : (∀ v ∈ items, IsConfig v) → IsConfig (.list items)
  | map {fields : List (String × Value)} :
      (fields.map (·.1)).Nodup → (∀ field ∈ fields, IsConfig field.2) →
      IsConfig (.map (Entries.ofFields fields))

/-- The values of a map of raw configuration are raw configuration. -/
theorem Value.IsConfig.entries {entries : Entries} (h : (Value.map entries).IsConfig) :
    entries.IsRecord ∧ ∀ entry ∈ entries, entry.2.IsConfig := by
  cases h with
  | map hnodup hfields =>
    refine ⟨⟨_, hnodup, rfl⟩, fun entry hentry => ?_⟩
    obtain ⟨field, hfield, rfl⟩ := List.mem_map.mp hentry
    exact hfields field hfield

theorem Value.IsConfig.items {items : List Value} (h : (Value.list items).IsConfig) :
    ∀ v ∈ items, v.IsConfig := by
  cases h with
  | list hitems => exact hitems

namespace Binding

mutual

/-- **The marked sources** of a value, in the order in which they are written. -/
def sources : Value → List String
  | .atom (.marker source) => [source]
  | .atom _ | .shared _ => []
  | .list items | .tuple items => sourcesOfItems items
  | .map entries => match markedSource? (.map entries) with
    | some source => [source]
    | none => sourcesOfEntries entries

/-- The marked sources of the items of a sequence. -/
def sourcesOfItems : List Value → List String
  | [] => []
  | v :: rest => sources v ++ sourcesOfItems rest

/-- The marked sources of the values of a map. -/
def sourcesOfEntries : List (Scalar × Value) → List String
  | [] => []
  | (_, v) :: rest => sources v ++ sourcesOfEntries rest

end

/-! ## §2 Interpretation -/

/-- The value of a source in a context. -/
def valueOf (σ : Store) (context : Value) (source : String) : Except Raised Value := do
  let e ← Expression.parse source
  (e.evaluate σ context).mapError (·.raised)

mutual

/-- **What a raw value stands for** in a context, and the store with the
containers that it takes. -/
def interpret (context : Value) : Value → Store → Except Raised (Value × Store)
  | .atom (.marker source), σ => do pure (← valueOf σ context source, σ)
  | .atom s, σ => .ok (.atom s, σ)
  | .shared address, σ => .ok (.shared address, σ)
  | .tuple items, σ => do
    let (values, σ) ← interpretItems context items σ
    pure (.tuple values, σ)
  | .list items, σ => do
    let (values, σ) ← interpretItems context items σ
    pure (σ.alloc (.list values))
  | .map entries, σ =>
    match markedSource? (.map entries) with
    | some source => do pure (← valueOf σ context source, σ)
    | none => do
      let (pairs, σ) ← interpretEntries context entries σ
      pure (σ.alloc (.map pairs))

/-- What the items of a sequence stand for. -/
def interpretItems (context : Value) : List Value → Store → Except Raised (List Value × Store)
  | [], σ => .ok ([], σ)
  | v :: rest, σ => do
    let (v, σ) ← interpret context v σ
    let (vs, σ) ← interpretItems context rest σ
    pure (v :: vs, σ)

/-- What the values of a map stand for. -/
def interpretEntries (context : Value) :
    List (Scalar × Value) → Store → Except Raised (List (Scalar × Value) × Store)
  | [], σ => .ok ([], σ)
  | (k, v) :: rest, σ => do
    let (v, σ) ← interpret context v σ
    let (vs, σ) ← interpretEntries context rest σ
    pure ((k, v) :: vs, σ)

end

/-- **Replacement**: in the store `τ`, which grew from `σ`, a value shows the raw value with every
marker replaced by its value in the context: scalars are themselves, and lists and maps are new
containers with the same places and the same keys in the same order. -/
inductive Replaces (context : Value) (σ τ : Store) : Value → Value → Prop
  | marked {raw v : Value} {source : String} :
      markedSource? raw = some source → valueOf σ context source = .ok v →
      Replaces context σ τ raw v
  | atom {s : Scalar} : markedSource? (.atom s) = none → Replaces context σ τ (.atom s) (.atom s)
  | list {items values : List Value} {address : Nat} :
      σ.cells.size ≤ address → τ.cell? address = some (.list values) →
      values.length = items.length →
      (∀ pair ∈ items.zip values, Replaces context σ τ pair.1 pair.2) →
      Replaces context σ τ (.list items) (.shared address)
  | map {entries shown : Entries} {address : Nat} :
      markedSource? (.map entries) = none → σ.cells.size ≤ address →
      τ.cell? address = some (.map shown) →
      shown.map (·.1) = entries.map (·.1) →
      (∀ pair ∈ (entries.map (·.2)).zip (shown.map (·.2)), Replaces context σ τ pair.1 pair.2) →
      Replaces context σ τ (.map entries) (.shared address)

/-! ## §3 Failures in order -/

/-- The failure of the first source that fails. -/
def firstFailure {α : Type} (f : String → Except Raised α) (sources : List String) :
    Option Raised :=
  sources.findSome? fun source => match f source with
    | .ok _ => none
    | .error e => some e

variable {α : Type} {f : String → Except Raised α} {first second : List String}

/-- Of sources in a row the first ones fail first. -/
theorem firstFailure_append :
    firstFailure f (first ++ second) = (firstFailure f first).or (firstFailure f second) :=
  List.findSome?_append

theorem firstFailure_singleton_of_ok {source : String} {x : α} (h : f source = .ok x) :
    firstFailure f [source] = none := by
  simp [firstFailure, h]

theorem firstFailure_singleton_of_error {source : String} {e : Raised} (h : f source = .error e) :
    firstFailure f [source] = some e := by
  simp [firstFailure, h]

theorem firstFailure_eq_none_iff {sources : List String} :
    firstFailure f sources = none ↔ ∀ source ∈ sources, ∃ x, f source = .ok x := by
  simp only [firstFailure, List.findSome?_eq_none_iff]
  refine forall₂_congr fun source _ => ?_
  cases f source <;> simp

/-- What fails first is one of the sources. -/
theorem exists_of_firstFailure {sources : List String} {e : Raised}
    (h : firstFailure f sources = some e) :
    ∃ source ∈ sources, f source = .error e := by
  obtain ⟨source, hsource, hfails⟩ := List.exists_of_findSome?_eq_some h
  refine ⟨source, hsource, ?_⟩
  cases hs : f source with
  | ok x => simp [hs] at hfails
  | error e' => simpa [hs] using hfails

/-- **A computation follows sources**: it fails as the first of them does that fails, and else it
succeeds with a result as it should be. -/
def Follows {α β : Type} (f : String → Except Raised α) (sources : List String)
    (result : Except Raised β) (good : β → Prop) : Prop :=
  match firstFailure f sources with
  | some e => result = .error e
  | none => ∃ y, result = .ok y ∧ good y

namespace Follows

variable {β γ : Type} {x : Except Raised β} {good : β → Prop} {better : γ → Prop}

theorem nil {y : β} (h : good y) : Follows f [] (.ok y) good := ⟨y, rfl, h⟩

/-- A computation that succeeds has a result as it should be, and none of its sources fails. -/
theorem of_ok {y : β} (h : Follows f first (.ok y) good) :
    firstFailure f first = none ∧ good y := by
  unfold Follows at h
  split at h
  · cases h
  · rename_i hnone
    obtain ⟨y', hy', hgood⟩ := h
    obtain rfl := Except.ok.inj hy'
    exact ⟨hnone, hgood⟩

/-- A computation fails exactly as its first source does that fails. -/
theorem error_iff {e : Raised} (h : Follows f first x good) :
    x = .error e ↔ firstFailure f first = some e := by
  unfold Follows at h
  split at h
  · rename_i e' hfirst
    rw [h, hfirst]
    simp
  · rename_i hnone
    obtain ⟨y, rfl, -⟩ := h
    -- No source fails, and then the computation succeeds.
    simp [hnone]

/-- A computation that goes on with the value of a source follows it. -/
theorem source {s : String} {k : α → β} (h : ∀ v, f s = .ok v → good (k v)) :
    Follows f [s] (f s >>= fun v => pure (k v)) good := by
  unfold Follows
  cases hs : f s with
  | ok v =>
    rw [firstFailure_singleton_of_ok hs]
    exact ⟨k v, rfl, h v hs⟩
  | error e =>
    rw [firstFailure_singleton_of_error hs]
    rfl

/-- Two computations in a row follow their sources in a row. -/
theorem bind {k : β → Except Raised γ} (h : Follows f first x good)
    (hk : ∀ y, good y → Follows f second (k y) better) :
    Follows f (first ++ second) (x >>= k) better := by
  unfold Follows at h ⊢
  rw [firstFailure_append]
  -- If one of the first sources fails, the second computation does not begin.
  cases hfirst : firstFailure f first with
  | some e =>
    rw [hfirst] at h
    simp only at h
    rw [h]
    rfl
  | none =>
    rw [hfirst] at h
    obtain ⟨y, rfl, hy⟩ := h
    exact hk y hy

/-- Changing the result of a computation changes nothing about its failures. -/
theorem map {k : β → γ} (h : Follows f first x good) (hk : ∀ y, good y → better (k y)) :
    Follows f first (x >>= fun y => pure (k y)) better := by
  rw [← List.append_nil first]
  exact h.bind fun y hy => .nil (hk y hy)

end Follows

/-! ## §4 Interpretation replaces markers -/

variable {context : Value} {σ τ ρ : Store}

/-- A source has the same value in a store that grew. -/
theorem valueOf_extends {source : String} (hσ : σ.Closed) (hcontext : context.Within σ.cells.size)
    (h : σ.Extends τ) : valueOf τ context source = valueOf σ context source := by
  unfold valueOf
  cases hparse : Expression.parse source with
  | error e => rfl
  | ok e =>
    -- What can be read has literals without parts, so its value is what it was.
    have heval := Expression.evaluate_extends (Expression.atomic_of_parse hparse) hσ h hcontext
    simp only [bind, Except.bind, heval]

/-- What replaces a raw value still does in a store that grew. -/
theorem Replaces.extends {raw v : Value} (h : Replaces context σ τ raw v) (hτ : τ.Extends ρ) :
    Replaces context σ ρ raw v := by
  -- Cells that are there stay, so every container is found where it was.
  induction h with
  | marked hmarked hvalue => exact .marked hmarked hvalue
  | atom hunmarked => exact .atom hunmarked
  | list hfresh hcell hlength _ ih => exact .list hfresh (hτ _ _ hcell) hlength ih
  | map hunmarked hfresh hcell hkeys _ ih => exact .map hunmarked hfresh (hτ _ _ hcell) hkeys ih

/-- What a computation of a value and a store comes to that replaces a raw value. -/
def Replaced (context : Value) (σ τ : Store) (raw : Value) (result : Value × Store) : Prop :=
  τ.Extends result.2 ∧ Replaces context σ result.2 raw result.1

/-- The same for the items of a sequence. -/
def ReplacedItems (context : Value) (σ τ : Store) (raws : List Value)
    (result : List Value × Store) : Prop :=
  τ.Extends result.2 ∧ List.Forall₂ (Replaces context σ result.2) raws result.1

/-- The same for the values of a map. -/
def ReplacedEntries (context : Value) (σ τ : Store) (raws : Entries)
    (result : Entries × Store) : Prop :=
  result.1.map (·.1) = raws.map (·.1) ∧
    ReplacedItems context σ τ (raws.map (·.2)) (result.1.map (·.2), result.2)

/-- A marked source is replaced by its value. -/
theorem follows_marked {raw : Value} {source : String} (hσ : σ.Closed)
    (hcontext : context.Within σ.cells.size) (hτ : σ.Extends τ)
    (hmarked : markedSource? raw = some source) :
    Follows (valueOf σ context) [source] (valueOf τ context source >>= fun v => pure (v, τ))
      (Replaced context σ τ raw) := by
  rw [valueOf_extends hσ hcontext hτ]
  exact .source fun v hv => ⟨.refl τ, .marked hmarked hv⟩

/-- A scalar is itself unless it marks a source. -/
theorem interpret_atom_spec (hσ : σ.Closed) (hcontext : context.Within σ.cells.size)
    (hτ : σ.Extends τ) (s : Scalar) : Follows (valueOf σ context) (sources (.atom s))
      (interpret context (.atom s) τ) (Replaced context σ τ (.atom s)) := by
  cases s with
  | marker source =>
    simp only [sources, interpret]
    exact follows_marked hσ hcontext hτ rfl
  | null | bool _ | int _ | float _ | text _ | bytes _ | foreign _ _ =>
    simp only [sources, interpret]
    exact .nil ⟨.refl τ, .atom rfl⟩

/-- A new list of what replaces the items replaces the list. -/
theorem ReplacedItems.alloc {items : List Value} {result : List Value × Store} (hτ : σ.Extends τ)
    (h : ReplacedItems context σ τ items result) :
    Replaced context σ τ (.list items) (result.2.alloc (.list result.1)) := by
  obtain ⟨hextends, hitems⟩ := h
  obtain ⟨hlength, hzip⟩ := List.forall₂_iff_zip.mp hitems
  have halloc := Store.extends_alloc result.2 (.list result.1)
  -- The new list is a cell that was not there before, and its items are replaced as before.
  refine ⟨hextends.trans halloc, ?_⟩
  refine .list (hτ.trans hextends).size_le Store.cell?_alloc_self hlength.symm ?_
  exact fun pair hpair => (hzip hpair).extends halloc

/-- A new map of what replaces the values replaces the map. -/
theorem ReplacedEntries.alloc {entries : Entries} {result : Entries × Store} (hτ : σ.Extends τ)
    (hunmarked : markedSource? (.map entries) = none)
    (h : ReplacedEntries context σ τ entries result) :
    Replaced context σ τ (.map entries) (result.2.alloc (.map result.1)) := by
  obtain ⟨hkeys, hextends, hvalues⟩ := h
  obtain ⟨-, hzip⟩ := List.forall₂_iff_zip.mp hvalues
  have halloc := Store.extends_alloc result.2 (.map result.1)
  refine ⟨hextends.trans halloc, ?_⟩
  refine .map hunmarked (hτ.trans hextends).size_le Store.cell?_alloc_self hkeys ?_
  exact fun pair hpair => (hzip hpair).extends halloc

mutual

/-- **Interpretation** fails as the first marked source does that fails, and else replaces every
marker by its value and nothing else. -/
theorem interpret_spec (hσ : σ.Closed) (hcontext : context.Within σ.cells.size) :
    ∀ (raw : Value) {τ : Store}, raw.IsConfig → σ.Extends τ →
      Follows (valueOf σ context) (sources raw) (interpret context raw τ) (Replaced context σ τ raw)
  | .atom s, _, _, hτ => interpret_atom_spec hσ hcontext hτ s
  | .list items, τ, h, hτ => by
    simp only [sources, interpret]
    exact (interpretItems_spec hσ hcontext items h.items hτ).map fun _ hitems => hitems.alloc hτ
  | .map entries, τ, h, hτ => by
    simp only [sources, interpret]
    split
    · rename_i source hmarked
      -- The map is a marker, so nothing in it is looked at.
      exact follows_marked hσ hcontext hτ hmarked
    · rename_i hunmarked
      exact (interpretEntries_spec hσ hcontext entries h.entries.2 hτ).map fun _ hentries =>
        hentries.alloc hτ hunmarked
  | .tuple _, _, h, _ => nomatch h
  | .shared _, _, h, _ => nomatch h

theorem interpretItems_spec (hσ : σ.Closed) (hcontext : context.Within σ.cells.size) :
    ∀ (items : List Value) {τ : Store}, (∀ v ∈ items, v.IsConfig) → σ.Extends τ →
      Follows (valueOf σ context) (sourcesOfItems items) (interpretItems context items τ)
        (ReplacedItems context σ τ items)
  | [], τ, _, _ => .nil ⟨.refl τ, .nil⟩
  | v :: rest, τ, h, hτ => by
    simp only [sourcesOfItems, interpretItems]
    refine (interpret_spec hσ hcontext v (h v (List.mem_cons_self ..)) hτ).bind fun first hfirst =>
      ?_
    refine (interpretItems_spec hσ hcontext rest (fun v hv => h v (List.mem_cons_of_mem _ hv))
      (hτ.trans hfirst.1)).map fun others hothers => ?_
    -- What replaces the first item still does when the others have been interpreted.
    exact ⟨hfirst.1.trans hothers.1, .cons (hfirst.2.extends hothers.1) hothers.2⟩

theorem interpretEntries_spec (hσ : σ.Closed) (hcontext : context.Within σ.cells.size) :
    ∀ (entries : List (Scalar × Value)) {τ : Store},
      (∀ entry ∈ entries, entry.2.IsConfig) → σ.Extends τ →
      Follows (valueOf σ context) (sourcesOfEntries entries) (interpretEntries context entries τ)
        (ReplacedEntries context σ τ entries)
  | [], τ, _, _ => .nil ⟨rfl, .refl τ, .nil⟩
  | (k, v) :: rest, τ, h, hτ => by
    simp only [sourcesOfEntries, interpretEntries]
    refine (interpret_spec hσ hcontext v (h (k, v) (List.mem_cons_self ..)) hτ).bind
      fun first hfirst => ?_
    refine (interpretEntries_spec hσ hcontext rest
      (fun entry hentry => h entry (List.mem_cons_of_mem _ hentry))
      (hτ.trans hfirst.1)).map fun others hothers => ?_
    obtain ⟨hkeys, hextends, hvalues⟩ := hothers
    exact ⟨by simp [hkeys], hfirst.1.trans hextends, .cons (hfirst.2.extends hextends) hvalues⟩

end

end Binding

end Switchyard
