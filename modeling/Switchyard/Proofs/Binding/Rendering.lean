import Switchyard.Proofs.Binding.Correct
import Switchyard.Proofs.Value.Entries

/-!
# What raw configuration resolves to

Any raw value is compiled, be its keys texts or not and be its sequences lists or tuples. A part of
it without expressions resolves to itself. In a part with an expression somewhere a tuple becomes a
list, and the keys of a map become texts, of which equal ones are one key.

Main statement: what comes of compiling and resolving a raw value (`compile_renders`).
-/

namespace Switchyard

/-! ## §1 Data laid out -/

/-- **Data laid out**: in the store `τ`, a value holds a tree of data in containers of its own, that
is at addresses from `n` on. What refers only to addresses below `n` is kept as it is. -/
inductive LaidOut (n : Nat) (τ : Store) : Value → Value → Prop
  | kept {v : Value} : v.Within n → LaidOut n τ v v
  | tuple {values items : List Value} :
      values.length = items.length → (∀ pair ∈ values.zip items, LaidOut n τ pair.1 pair.2) →
      LaidOut n τ (.tuple values) (.tuple items)
  | list {values items : List Value} {address : Nat} :
      n ≤ address → τ.cell? address = some (.list values) →
      values.length = items.length → (∀ pair ∈ values.zip items, LaidOut n τ pair.1 pair.2) →
      LaidOut n τ (.shared address) (.list items)
  | map {held entries : Entries} {address : Nat} :
      n ≤ address → τ.cell? address = some (.map held) →
      held.length = entries.length → (∀ pair ∈ held.zip entries, pair.1.1 = pair.2.1) →
      (∀ pair ∈ held.zip entries, LaidOut n τ pair.1.2 pair.2.2) →
      LaidOut n τ (.shared address) (.map entries)

variable {n : Nat} {σ τ ρ : Store} {v t : Value} {vs ts : List Value} {held written : Entries}

/-- What holds data still does in a store that grew. -/
theorem LaidOut.extends (h : LaidOut n τ v t) (hτ : τ.Extends ρ) : LaidOut n ρ v t := by
  induction h with
  | kept hv => exact .kept hv
  | tuple hlength _ ih => exact .tuple hlength ih
  | list hfresh hcell hlength _ ih => exact .list hfresh (hτ _ _ hcell) hlength ih
  | map hfresh hcell hlength hkeys _ ih => exact .map hfresh (hτ _ _ hcell) hlength hkeys ih

namespace LaidOut

theorem of_tuple (h : List.Forall₂ (LaidOut n τ) vs ts) : LaidOut n τ (.tuple vs) (.tuple ts) := by
  obtain ⟨hlength, hzip⟩ := List.forall₂_iff_zip.mp h
  exact .tuple hlength fun pair hpair => hzip hpair

/-- A new list of what holds the items holds the list. -/
theorem alloc_list (hn : n ≤ τ.cells.size) (h : List.Forall₂ (LaidOut n τ) vs ts) :
    LaidOut n (τ.alloc (.list vs)).2 (τ.alloc (.list vs)).1 (.list ts) := by
  obtain ⟨hlength, hzip⟩ := List.forall₂_iff_zip.mp h
  have hextends := Store.extends_alloc τ (.list vs)
  exact .list hn Store.cell?_alloc_self hlength fun pair hpair => (hzip hpair).extends hextends

/-- A new map of what holds the entries holds the map. -/
theorem alloc_map (hn : n ≤ τ.cells.size) (h : held.Correspond (LaidOut n τ) written) :
    LaidOut n (τ.alloc (.map held)).2 (τ.alloc (.map held)).1 (.map written) := by
  obtain ⟨hlength, hzip⟩ := List.forall₂_iff_zip.mp h
  have hextends := Store.extends_alloc τ (.map held)
  exact .map hn Store.cell?_alloc_self hlength (fun pair hpair => (hzip hpair).1)
    fun pair hpair => (hzip hpair).2.extends hextends

end LaidOut

theorem Value.Within.items (h : (Value.list vs).Within n) : ∀ v ∈ vs, v.Within n := by
  cases h with
  | list hitems => exact hitems

theorem Value.Within.parts (h : (Value.tuple vs).Within n) : ∀ v ∈ vs, v.Within n := by
  cases h with
  | tuple hitems => exact hitems

theorem Value.Within.entries (h : (Value.map written).Within n) :
    ∀ entry ∈ written, entry.2.Within n := by
  cases h with
  | map hentries => exact hentries

namespace Store

mutual

/-- **Laying out** a value makes what holds it. -/
theorem layOutValue_laidOut : ∀ (v : Value) (τ : Store), v.Within n → n ≤ τ.cells.size →
    LaidOut n (layOutValue v τ).2 (layOutValue v τ).1 v
  | .atom s, _, h, _ => .kept h
  | .shared address, _, h, _ => .kept h
  | .tuple items, τ, h, hn => .of_tuple (layOutItems_laidOut items τ h.parts hn)
  | .list items, τ, h, hn => by
    have hgrown := Nat.le_trans hn (layOutItems_extends items τ).size_le
    exact .alloc_list hgrown (layOutItems_laidOut items τ h.items hn)
  | .map entries, τ, h, hn => by
    have hgrown := Nat.le_trans hn (layOutEntries_extends entries τ).size_le
    exact .alloc_map hgrown (layOutEntries_laidOut entries τ h.entries hn)

theorem layOutItems_laidOut :
    ∀ (items : List Value) (τ : Store), (∀ v ∈ items, v.Within n) → n ≤ τ.cells.size →
    List.Forall₂ (LaidOut n (layOutItems items τ).2) (layOutItems items τ).1 items
  | [], _, _, _ => .nil
  | v :: rest, τ, h, hn => by
    have hfirst := layOutValue_laidOut v τ (h v (List.mem_cons_self ..)) hn
    have hgrown := Nat.le_trans hn (layOutValue_extends v τ).size_le
    have hrest := layOutItems_laidOut rest (layOutValue v τ).2
        (fun w hw => h w (List.mem_cons_of_mem _ hw)) hgrown
    exact .cons (hfirst.extends (layOutItems_extends rest _)) hrest

theorem layOutEntries_laidOut : ∀ (entries : List (Scalar × Value)) (τ : Store),
    (∀ entry ∈ entries, entry.2.Within n) → n ≤ τ.cells.size →
    Entries.Correspond (LaidOut n (layOutEntries entries τ).2) (layOutEntries entries τ).1 entries
  | [], _, _, _ => .nil
  | (k, v) :: rest, τ, h, hn => by
    have hfirst := layOutValue_laidOut v τ (h (k, v) (List.mem_cons_self ..)) hn
    have hgrown := Nat.le_trans hn (layOutValue_extends v τ).size_le
    have hrest := layOutEntries_laidOut rest (layOutValue v τ).2
        (fun w hw => h w (List.mem_cons_of_mem _ hw)) hgrown
    exact .cons ⟨rfl, hfirst.extends (layOutEntries_extends rest _)⟩ hrest

end

end Store

/-! ## §2 Trees of data -/

namespace Binding

mutual

/-- **What a raw value resolves to**, as a tree of data, if `f` gives the values of its sources. -/
def rendered (f : String → Value) : Value → Value
  | .atom (.marker source) => f source
  | .atom s => .atom s
  | .shared address => .shared address
  | .list items => .list (renderedItems f items)
  | .tuple items =>
    if sourcesOfItems items = [] then .tuple items else .list (renderedItems f items)
  | .map entries => match markedSource? (.map entries) with
    | some source => f source
    | none =>
      if sourcesOfEntries entries = [] then .map entries
      else .map (Entries.ofPairs (Entries.ofFields (renderedFields f entries)))

/-- What the items of a sequence resolve to. -/
def renderedItems (f : String → Value) : List Value → List Value
  | [] => []
  | v :: rest => rendered f v :: renderedItems f rest

/-- What the values of a map resolve to, under their keys as texts. -/
def renderedFields (f : String → Value) : List (Scalar × Value) → List (String × Value)
  | [] => []
  | (k, v) :: rest => (k.shown, rendered f v) :: renderedFields f rest

end

variable {f : String → Value}

mutual

/-- A value without sources resolves to itself. -/
theorem rendered_of_literal : ∀ {v : Value}, sources v = [] → rendered f v = v
  | .atom s, h => by cases s <;> first | rfl | cases h
  | .shared _, _ => rfl
  | .list items, h => by
    rw [sources] at h
    rw [rendered, renderedItems_of_literal h]
  | .tuple items, h => by
    rw [sources] at h
    rw [rendered, if_pos h]
  | .map entries, h => by
    rw [sources] at h
    split at h
    · cases h
    · rename_i hunmarked
      simp only [rendered, hunmarked, if_pos h]

theorem renderedItems_of_literal :
    ∀ {items : List Value}, sourcesOfItems items = [] → renderedItems f items = items
  | [], _ => rfl
  | v :: rest, h => by
    obtain ⟨hv, hrest⟩ := List.append_eq_nil_iff.mp h
    rw [renderedItems, rendered_of_literal hv, renderedItems_of_literal hrest]

end

mutual

/-- What a raw value within bounds resolves to is within bounds, if the values of sources are. -/
theorem within_rendered (hf : ∀ source, (f source).Within n) :
    ∀ {v : Value}, v.Within n → (rendered f v).Within n
  | .atom s, h => by cases s <;> first | exact h | exact hf _
  | .shared _, h => h
  | .list items, h => .list (within_renderedItems hf h.items)
  | .tuple items, h => by
    rw [rendered]
    split_ifs
    · exact h
    · exact .list (within_renderedItems hf h.parts)
  | .map entries, h => by
    rw [rendered]
    split
    · exact hf _
    · split_ifs
      · exact h
      · exact .map (Entries.forall_ofPairs (within_renderedFields hf h.entries))

theorem within_renderedItems (hf : ∀ source, (f source).Within n) : ∀ {items : List Value},
    (∀ v ∈ items, v.Within n) → ∀ v ∈ renderedItems f items, v.Within n
  | [], _ => by simp [renderedItems]
  | v :: rest, h => by
    rw [renderedItems, List.forall_mem_cons]
    exact ⟨within_rendered hf (h v (List.mem_cons_self ..)),
      within_renderedItems hf fun w hw => h w (List.mem_cons_of_mem _ hw)⟩

theorem within_renderedFields (hf : ∀ source, (f source).Within n) :
    ∀ {entries : List (Scalar × Value)},
    (∀ entry ∈ entries, entry.2.Within n) → ∀ entry ∈ Entries.ofFields (renderedFields f entries),
      entry.2.Within n
  | [], _ => by simp [renderedFields]
  | (k, v) :: rest, h => by
    rw [renderedFields, Entries.ofFields_cons, List.forall_mem_cons]
    exact ⟨within_rendered hf (h (k, v) (List.mem_cons_self ..)),
      within_renderedFields hf fun w hw => h w (List.mem_cons_of_mem _ hw)⟩

end

/-! ## §3 Bindings that render -/

variable {context : Value}

/-- The value of a source in a context; null if it has none. -/
def valueIn (σ : Store) (context : Value) (source : String) : Value :=
  match valueOf σ context source with
  | .ok v => v
  | .error _ => .null

theorem valueIn_of_ok {source : String} (h : valueOf σ context source = .ok v) :
    valueIn σ context source = v := by
  rw [valueIn, h]

/-- The values of sources refer only to cells that are there. -/
theorem within_valueIn (hσ : σ.Closed) (hcontext : context.Within σ.cells.size) (source : String) :
    (valueIn σ context source).Within σ.cells.size := by
  unfold valueIn
  split
  · rename_i v hv
    obtain ⟨e, he, hv⟩ := bind_ok_iff.mp hv
    cases heval : e.evaluate σ context with
    | error problem =>
      rw [heval] at hv
      cases hv
    | ok w =>
      rw [heval] at hv
      obtain rfl := Except.ok.inj hv
      exact (Expression.Tree.evaluate_extends (Expression.atomic_of_parse he) hσ
        (.refl σ) hcontext).2 w heval
  · exact .atom _

/-- What a computation of a value and a store comes to that renders a raw value. -/
def Rendered (context : Value) (σ τ : Store) (raw : Value) (result : Value × Store) : Prop :=
  τ.Extends result.2 ∧ LaidOut σ.cells.size result.2 result.1 (rendered (valueIn σ context) raw)

/-- The same for the items of a sequence. -/
def RenderedItems (context : Value) (σ τ : Store) (items : List Value)
    (result : List Value × Store) : Prop :=
  τ.Extends result.2 ∧
    List.Forall₂ (LaidOut σ.cells.size result.2) result.1 (renderedItems (valueIn σ context) items)

/-- The same for the values of a map. -/
def RenderedEntries (context : Value) (σ τ : Store) (entries : Entries)
    (result : Entries × Store) : Prop :=
  τ.Extends result.2 ∧ result.1.Correspond (LaidOut σ.cells.size result.2)
    (Entries.ofFields (renderedFields (valueIn σ context) entries))

/-- **A binding renders a raw value**: it is literal exactly if nothing in the value is marked, and
then it is that value; and it resolves to what the value is rendered as, or fails as the first
marked source does that fails. -/
structure Renders (raw : Value) (b : Binding) : Prop where
  isLiteral_iff : b.isLiteral = true ↔ sources raw = []
  literal : b.isLiteral = true → b = .literal raw
  resolves : ∀ {context : Value} {σ τ : Store}, σ.Closed → context.Within σ.cells.size →
    raw.Within σ.cells.size → σ.Extends τ →
      Follows (valueOf σ context) (sources raw) (told (resolve context b τ))
        (Rendered context σ τ raw)

/-- Bindings render the items of a sequence. -/
structure RenderItems (items : List Value) (bs : List Binding) : Prop where
  all_iff : bs.all isLiteral = true ↔ sourcesOfItems items = []
  resolves : ∀ {context : Value} {σ τ : Store}, σ.Closed → context.Within σ.cells.size →
    (∀ v ∈ items, v.Within σ.cells.size) → σ.Extends τ →
      Follows (valueOf σ context) (sourcesOfItems items) (told (resolveItems context bs τ))
        (RenderedItems context σ τ items)

/-- Bindings render the values of a map. -/
structure RenderEntries (entries : Entries) (bs : List (String × Binding)) : Prop where
  all_iff : bs.all (·.2.isLiteral) = true ↔ sourcesOfEntries entries = []
  resolves : ∀ {context : Value} {σ τ : Store}, σ.Closed → context.Within σ.cells.size →
    (∀ entry ∈ entries, entry.2.Within σ.cells.size) → σ.Extends τ →
      Follows (valueOf σ context) (sourcesOfEntries entries) (told (resolveEntries context bs τ))
        (RenderedEntries context σ τ entries)

variable {raw : Value} {b : Binding}

/-- A value without sources is rendered by the literal of it. -/
theorem renders_literal (h : sources raw = []) : Renders raw (.literal raw) where
  isLiteral_iff := ⟨fun _ => h, fun _ => rfl⟩
  literal _ := rfl
  resolves {context σ τ} hσ hcontext hraw hτ := by
    rw [h]
    refine .nil ⟨τ.layOut_extends raw, ?_⟩
    rw [rendered_of_literal h]
    exact Store.layOutValue_laidOut raw τ hraw hτ.size_le

/-- A marked source is rendered by its expression. -/
theorem renders_marked {source : String} {e : Expression} (hsources : sources raw = [source])
    (hrendered : ∀ f, rendered f raw = f source) (he : Expression.parse source = .ok e) :
    Renders raw (.expression e) where
  isLiteral_iff := by simp [isLiteral, hsources]
  literal h := by cases h
  resolves {context σ τ} hσ hcontext hraw hτ := by
    have hresolve : told (resolve context (.expression e) τ) =
        valueOf σ context source >>= fun v => pure (v, τ) := by
      have hvalue : valueOf τ context source = told (e.evaluate τ context) := by
        rw [valueOf, he]
        rfl
      rw [← valueOf_extends hσ hcontext hτ, hvalue, resolve, told_bind]
      rfl
    rw [hresolve, hsources]
    -- The value of the source refers to cells that are there, and is kept.
    refine .source fun v hv => ⟨.refl τ, ?_⟩
    rw [hrendered, valueIn_of_ok hv]
    exact .kept (valueIn_of_ok hv ▸ within_valueIn hσ hcontext source)

theorem RenderItems.nil : RenderItems [] [] :=
  ⟨by simp [sourcesOfItems], fun {_ _ τ} _ _ _ _ => .nil ⟨.refl τ, .nil⟩⟩

theorem RenderItems.cons {items : List Value} {bs : List Binding} (hv : Renders raw b)
    (h : RenderItems items bs) : RenderItems (raw :: items) (b :: bs) where
  all_iff := by
    rw [List.all_cons, Bool.and_eq_true_iff, hv.isLiteral_iff, h.all_iff, sourcesOfItems,
      List.append_eq_nil_iff]
  resolves {context σ τ} hσ hcontext hraw hτ := by
    simp only [resolveItems, told_bind, sourcesOfItems]
    obtain ⟨hfirst, hothers⟩ := List.forall_mem_cons.mp hraw
    refine (hv.resolves hσ hcontext hfirst hτ).bind fun first hrendered => ?_
    refine (h.resolves hσ hcontext hothers (hτ.trans hrendered.1)).map fun others hrest => ?_
    -- What holds the first item still does when the others have been resolved.
    exact ⟨hrendered.1.trans hrest.1, .cons (hrendered.2.extends hrest.1) hrest.2⟩

theorem RenderEntries.nil : RenderEntries [] [] :=
  ⟨by simp [sourcesOfEntries], fun {_ _ τ} _ _ _ _ => .nil ⟨.refl τ, .nil⟩⟩

theorem RenderEntries.cons {k : Scalar} {entries : Entries} {bs : List (String × Binding)}
    (hv : Renders raw b) (h : RenderEntries entries bs) :
    RenderEntries ((k, raw) :: entries) ((k.shown, b) :: bs) where
  all_iff := by
    rw [List.all_cons, Bool.and_eq_true_iff, hv.isLiteral_iff, h.all_iff, sourcesOfEntries,
      List.append_eq_nil_iff]
  resolves {context σ τ} hσ hcontext hraw hτ := by
    simp only [resolveEntries, told_bind, sourcesOfEntries]
    obtain ⟨hfirst, hothers⟩ := List.forall_mem_cons.mp hraw
    refine (hv.resolves hσ hcontext hfirst hτ).bind fun first hrendered => ?_
    refine (h.resolves hσ hcontext hothers (hτ.trans hrendered.1)).map fun others hrest => ?_
    exact ⟨hrendered.1.trans hrest.1, .cons ⟨rfl, hrendered.2.extends hrest.1⟩ hrest.2⟩

/-- A sequence with an expression in it is rendered by a list, whatever its kind. -/
theorem RenderItems.renders_list {items : List Value} {bs : List Binding} (h : RenderItems items bs)
    (hall : ¬ bs.all isLiteral = true) (hsources : sources raw = sourcesOfItems items)
    (hrendered : ∀ f, rendered f raw = .list (renderedItems f items))
    (hwithin : ∀ {n}, raw.Within n → ∀ v ∈ items, v.Within n) : Renders raw (.list bs) where
  isLiteral_iff := by
    rw [hsources, ← h.all_iff]
    exact ⟨fun hliteral => (by cases hliteral), fun hliteral => absurd hliteral hall⟩
  literal h := by cases h
  resolves {context σ τ} hσ hcontext hraw hτ := by
    simp only [resolve, told_bind, hsources]
    refine (h.resolves hσ hcontext (hwithin hraw) hτ).map fun result hitems => ?_
    -- The new list is a cell that was not there before.
    refine ⟨hitems.1.trans (Store.extends_alloc _ _), ?_⟩
    rw [hrendered]
    exact .alloc_list (hτ.trans hitems.1).size_le hitems.2

/-- A map with an expression in it is rendered by a map with text keys. -/
theorem RenderEntries.renders_map {entries : Entries} {bs : List (String × Binding)}
    (h : RenderEntries entries bs) (hall : ¬ bs.all (·.2.isLiteral) = true)
    (hunmarked : markedSource? (.map entries) = none) :
    Renders (.map entries) (.map bs) where
  isLiteral_iff := by
    have hsources : sources (.map entries) = sourcesOfEntries entries := by
      simp only [sources, hunmarked]
    rw [hsources, ← h.all_iff]
    exact ⟨fun hliteral => (by cases hliteral), fun hliteral => absurd hliteral hall⟩
  literal h := by cases h
  resolves {context σ τ} hσ hcontext hraw hτ := by
    simp only [resolve, told_bind, sources, hunmarked]
    refine (h.resolves hσ hcontext hraw.entries hτ).map fun result hentries => ?_
    refine ⟨hentries.1.trans (Store.extends_alloc _ _), ?_⟩
    have hsome : ¬ sourcesOfEntries entries = [] := fun hnone => hall (h.all_iff.mpr hnone)
    simp only [rendered, hunmarked, if_neg hsome]
    -- Equal keys are one key in what is held as in what it holds.
    exact .alloc_map (hτ.trans hentries.1).size_le hentries.2.ofPairs

/-! ## §4 Compilation -/

open Compilation (Reads)

variable {cache : SourceCache}

theorem compile_atom_renders (hcache : cache.Sound Expression.parse) (s : Scalar) :
    Reads (sources (.atom s)) (compile (.atom s) cache) (Renders (.atom s)) := by
  cases s with
  | marker source =>
    simp only [sources, compile]
    exact .source hcache fun e he => renders_marked rfl (fun _ => rfl) he
  | null | bool _ | int _ | float _ | text _ | bytes _ | foreign _ _ =>
    simp only [sources, compile]
    exact .pure hcache (renders_literal rfl)

mutual

/-- **Compilation** of any raw value fails as the first marked source does that cannot be read, and
else gives a binding that renders the value. -/
theorem compile_renders : ∀ (raw : Value) {cache : SourceCache}, cache.Sound Expression.parse →
    Reads (sources raw) (compile raw cache) (Renders raw)
  | .atom s, _, hcache => compile_atom_renders hcache s
  | .shared address, _, hcache => by
    simp only [sources, compile]
    exact .pure hcache (renders_literal rfl)
  | .list items, _, hcache => by
    simp only [sources, compile]
    refine (compileItems_renders items hcache).map fun bs hbs => ?_
    split_ifs with hall
    · exact renders_literal (by rw [sources]; exact hbs.all_iff.mp hall)
    · exact hbs.renders_list hall (by rw [sources]) (fun _ => by rw [rendered]) fun h => h.items
  | .tuple items, _, hcache => by
    simp only [sources, compile]
    refine (compileItems_renders items hcache).map fun bs hbs => ?_
    split_ifs with hall
    · exact renders_literal (by rw [sources]; exact hbs.all_iff.mp hall)
    · have hsome : ¬ sourcesOfItems items = [] := fun hnone => hall (hbs.all_iff.mpr hnone)
      exact hbs.renders_list hall (by rw [sources]) (fun _ => by rw [rendered, if_neg hsome])
        fun h => h.parts
  | .map entries, _, hcache => by
    cases hmarked : markedSource? (.map entries) with
    | some source =>
      simp only [sources, compile, hmarked]
      exact .source hcache fun e he =>
        renders_marked (by simp only [sources, hmarked])
          (fun _ => by simp only [rendered, hmarked]) he
    | none =>
      simp only [sources, compile, hmarked]
      refine (compileEntries_renders entries hcache).map fun bs hbs => ?_
      split_ifs with hall
      · exact renders_literal (by simp only [sources, hmarked]; exact hbs.all_iff.mp hall)
      · exact hbs.renders_map hall hmarked

theorem compileItems_renders :
    ∀ (items : List Value) {cache : SourceCache}, cache.Sound Expression.parse →
    Reads (sourcesOfItems items) (compileItems items cache) (RenderItems items)
  | [], _, hcache => .pure hcache .nil
  | v :: rest, _, hcache => by
    simp only [sourcesOfItems, compileItems]
    refine (compile_renders v hcache).bind fun b cache' hb hcache' => ?_
    exact (compileItems_renders rest hcache').map fun bs hbs => .cons hb hbs

theorem compileEntries_renders : ∀ (entries : List (Scalar × Value)) {cache : SourceCache},
    cache.Sound Expression.parse →
      Reads (sourcesOfEntries entries) (compileEntries entries cache) (RenderEntries entries)
  | [], _, hcache => .pure hcache .nil
  | (k, v) :: rest, _, hcache => by
    simp only [sourcesOfEntries, compileEntries]
    refine (compile_renders v hcache).bind fun b cache' hb hcache' => ?_
    exact (compileEntries_renders rest hcache').map fun bs hbs => .cons hb hbs

end

end Binding

end Switchyard
