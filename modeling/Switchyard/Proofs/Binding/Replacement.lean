import Switchyard.Proofs.Binding.Alike

/-!
# An expression in the place of a literal

A literal in a raw value is replaced by a marker of an expression that evaluates to it. The result
is alike only if the containers around the place do not change with it: while nothing in them is
marked they are kept as they were written, and with a marker in them a tuple becomes a list and the
keys of a map become texts.

Main statement: exactly when the replacement does not show (`replace_alike_iff`).
-/

namespace Switchyard

/-! ## §1 Places in raw values -/

/-- **A place in a raw value**, with everything around it. -/
inductive Site
  | whole
  | listItem (before : List Value) (inner : Site) (after : List Value)
  | tupleItem (before : List Value) (inner : Site) (after : List Value)
  | mapValue (before : Entries) (key : Scalar) (inner : Site) (after : Entries)

namespace Site

/-- The raw value with something at the place. -/
def fill : Site → Value → Value
  | .whole, v => v
  | .listItem before inner after, v => .list (before ++ inner.fill v :: after)
  | .tupleItem before inner after, v => .tuple (before ++ inner.fill v :: after)
  | .mapValue before key inner after, v => .map (before ++ (key, inner.fill v) :: after)

/-- No map around the place marks a source, so what is at the place is not source itself. -/
def Plain : Site → Value → Prop
  | .whole, _ => True
  | .listItem _ inner _, v | .tupleItem _ inner _, v => inner.Plain v
  | .mapValue before key inner after, v =>
    Binding.markedSource? (.map (before ++ (key, inner.fill v) :: after)) = none ∧ inner.Plain v

/-- **The containers around the place keep their form** when the value at the place
is replaced by a marker:

- a tuple has to hold a marker elsewhere, as it is a list then in any case;
- a map without other markers has to have texts for its keys, each there once; and in one with other
markers the keys are texts in any case, where the place may also be hidden by a later entry with the
same text for a key. -/
def Keeps : Site → Value → Prop
  | .whole, _ => True
  | .listItem _ inner _, v => inner.Keeps v
  | .tupleItem before inner after, v =>
    Binding.sourcesOfItems (before ++ inner.fill v :: after) ≠ [] ∧ inner.Keeps v
  | .mapValue before key inner after, v =>
    if Binding.sourcesOfEntries (before ++ (key, inner.fill v) :: after) = [] then
      Entries.IsRecord (before ++ (key, inner.fill v) :: after) ∧ inner.Keeps v
    else key.shown ∈ after.map (·.1.shown) ∨ inner.Keeps v

end Site

namespace Binding

variable {n : Nat} {σ : Store} {f : String → Value} {v m raw : Value} {source : String}
  {context : Value}

/-! ## §2 Markers -/

/-- A marked source is all that a marker has for sources. -/
theorem sources_of_marked (h : markedSource? m = some source) : sources m = [source] := by
  cases m with
  | atom s =>
    cases s <;> cases h
    rfl
  | map entries => simp only [sources, h]
  | list _ | tuple _ | shared _ => cases h

theorem rendered_of_marked (h : markedSource? m = some source) : rendered f m = f source := by
  cases m with
  | atom s =>
    cases s <;> cases h
    rfl
  | map entries => simp only [rendered, h]
  | list _ | tuple _ | shared _ => cases h

/-- A map that marks a source has that source for its only value. -/
theorem eq_of_marked_map {entries : Entries} (h : markedSource? (.map entries) = some source) :
    entries = [(.text expressionKey, .text source)] := by
  unfold markedSource? at h
  split at h
  · rename_i heq
    cases heq
  · rename_i key source' heq
    split_ifs at h with hkey
    obtain rfl := Option.some.inj h
    rw [← hkey]
    exact Value.map.inj heq
  · cases h

theorem within_of_marked (h : markedSource? m = some source) : m.Within n := by
  cases m with
  | atom s => exact .atom s
  | map entries =>
    rw [eq_of_marked_map h]
    exact .map fun entry hentry => by
      obtain rfl := List.mem_singleton.mp hentry
      exact .atom _
  | list _ | tuple _ | shared _ => cases h

/-- With a marker at a place no map around it marks a source. -/
theorem markedSource?_fill (site : Site) (before after : Entries) (key : Scalar)
    (h : markedSource? m = some source) :
    markedSource? (.map (before ++ (key, site.fill m) :: after)) = none := by
  cases hmarked : markedSource? (.map (before ++ (key, site.fill m) :: after)) with
  | none => rfl
  | some source' =>
    -- The only value would be a text, which a marker is not and holds no marker.
    have hvalue : site.fill m = .text source' := by
      have hmem : (key, site.fill m) ∈ [(Scalar.text expressionKey, Value.text source')] := by
        rw [← eq_of_marked_map hmarked]
        simp
      exact (Prod.mk.inj (List.mem_singleton.mp hmem)).2
    cases site with
    | whole =>
      rw [Site.fill] at hvalue
      rw [hvalue] at h
      cases h
    | listItem _ _ _ | tupleItem _ _ _ | mapValue _ _ _ _ => cases hvalue

/-! ## §3 Sources -/

theorem sourcesOfItems_append (first second : List Value) :
    sourcesOfItems (first ++ second) = sourcesOfItems first ++ sourcesOfItems second := by
  induction first with
  | nil => rfl
  | cons v first ih => simp [sourcesOfItems, ih]

theorem sourcesOfEntries_append (first second : Entries) :
    sourcesOfEntries (first ++ second) = sourcesOfEntries first ++ sourcesOfEntries second := by
  induction first with
  | nil => rfl
  | cons entry first ih => simp [sourcesOfEntries, ih]

/-- **The sources with a marker at a place** are those with a literal there, and that of the
marker between them. -/
theorem exists_sources_fill {site : Site} (hv : sources v = []) (hplain : site.Plain v)
    (hm : markedSource? m = some source) :
    ∃ first second, sources (site.fill v) = first ++ second ∧
      sources (site.fill m) = first ++ source :: second := by
  induction site with
  | whole => exact ⟨[], [], hv, sources_of_marked hm⟩
  | listItem before inner after ih | tupleItem before inner after ih =>
    obtain ⟨first, second, hfirst, hsecond⟩ := ih hplain
    refine ⟨sourcesOfItems before ++ first, second ++ sourcesOfItems after, ?_, ?_⟩
    · simp [Site.fill, sources, sourcesOfItems_append, sourcesOfItems, hfirst]
    · simp [Site.fill, sources, sourcesOfItems_append, sourcesOfItems, hsecond]
  | mapValue before key inner after ih =>
    obtain ⟨first, second, hfirst, hsecond⟩ := ih hplain.2
    refine ⟨sourcesOfEntries before ++ first, second ++ sourcesOfEntries after, ?_, ?_⟩
    · simp only [Site.fill, sources, hplain.1]
      simp [sourcesOfEntries_append, sourcesOfEntries, hfirst]
    · simp only [Site.fill, sources, markedSource?_fill inner before after key hm]
      simp [sourcesOfEntries_append, sourcesOfEntries, hsecond]

/-- A source that does not fail changes nothing about which one fails first. -/
theorem firstFailure_insert {α : Type} {g : String → Except Raised α} {x : α} (h : g source = .ok x)
    (first second : List String) :
    firstFailure g (first ++ source :: second) = firstFailure g (first ++ second) := by
  have hnone : firstFailure g (source :: second) = firstFailure g second := by
    simp [firstFailure, h]
  rw [firstFailure_append, firstFailure_append, hnone]

/-! ## §4 Trees with a value replaced -/

theorem renderedItems_append (first second : List Value) :
    renderedItems f (first ++ second) = renderedItems f first ++ renderedItems f second := by
  induction first with
  | nil => rfl
  | cons v first ih => simp [renderedItems, ih]

theorem renderedFields_append (first second : Entries) :
    renderedFields f (first ++ second) = renderedFields f first ++ renderedFields f second := by
  induction first with
  | nil => rfl
  | cons entry first ih => simp [renderedFields, ih]

theorem names_renderedFields (entries : Entries) :
    (renderedFields f entries).map (·.1) = entries.map (·.1.shown) := by
  induction entries with
  | nil => rfl
  | cons entry entries ih => simp [renderedFields, ih]

/-- Entries with text keys and without sources are what they are rendered as. -/
theorem renderedFields_of_literal {entries : Entries}
    (hkeys : ∀ entry ∈ entries, ∃ name, entry.1 = .text name) (h : sourcesOfEntries entries = []) :
    Entries.ofFields (renderedFields f entries) = entries := by
  induction entries with
  | nil => rfl
  | cons entry entries ih =>
    obtain ⟨k, v⟩ := entry
    obtain ⟨hv, hrest⟩ := List.append_eq_nil_iff.mp h
    obtain ⟨⟨name, rfl⟩, hothers⟩ := List.forall_mem_cons.mp hkeys
    rw [renderedFields, Entries.ofFields_cons, rendered_of_literal hv, ih hothers hrest]
    rfl

theorem forall_around_iff {α : Type} {p : α → Prop} {first second : List α} {a : α} :
    (∀ c ∈ first ++ a :: second, p c) ↔ (∀ c ∈ first, p c) ∧ p a ∧ ∀ c ∈ second, p c := by
  rw [List.forall_mem_append, List.forall_mem_cons]

/-- Lists that only differ in one member are related exactly if these are. -/
theorem forall₂_around_iff {α : Type} {r : α → α → Prop} {first second : List α} {a b : α}
    (hfirst : ∀ c ∈ first, r c c) (hsecond : ∀ c ∈ second, r c c) :
    List.Forall₂ r (first ++ a :: second) (first ++ b :: second) ↔ r a b := by
  induction first with
  | nil => simpa [List.forall₂_same] using fun _ => hsecond
  | cons c first ih =>
    obtain ⟨hc, hrest⟩ := List.forall_mem_cons.mp hfirst
    simp [hc, ih hrest]

/-- Entries that only differ in the value under one key correspond exactly if the
values are related. -/
theorem correspond_around_iff {r : Value → Value → Prop} {first second : Entries}
    {key : Scalar} {a b : Value} (hfirst : ∀ entry ∈ first, r entry.2 entry.2)
    (hsecond : ∀ entry ∈ second, r entry.2 entry.2) :
    Entries.Correspond r (first ++ (key, a) :: second) (first ++ (key, b) :: second) ↔ r a b := by
  rw [Entries.Correspond, forall₂_around_iff (fun entry hentry => ⟨rfl, hfirst entry hentry⟩)
    fun entry hentry => ⟨rfl, hsecond entry hentry⟩]
  simp

variable {x y : Value}

/-- Lists that are rendered from items which only differ at one place. -/
theorem alikeIn_renderedItems_iff {before after : List Value}
    (hf : ∀ source, (f source).Within σ.cells.size) (hbefore : ∀ v ∈ before, v.Within σ.cells.size)
    (hafter : ∀ v ∈ after, v.Within σ.cells.size) :
    AlikeIn σ (.list (renderedItems f (before ++ x :: after)))
      (.list (renderedItems f (before ++ y :: after))) ↔
      AlikeIn σ (rendered f x) (rendered f y) := by
  simp only [alikeIn_list_iff, renderedItems_append, renderedItems]
  apply forall₂_around_iff
  · exact fun v hv => alikeIn_refl (within_renderedItems hf hbefore v hv)
  · exact fun v hv => alikeIn_refl (within_renderedItems hf hafter v hv)

section

variable {before after : Entries} {key : Scalar}

/-- Maps with text keys that are rendered from entries which only differ in the
value under one key. -/
theorem alikeIn_renderedFields_iff (hf : ∀ source, (f source).Within σ.cells.size)
    (hwithin : ∀ entry ∈ before ++ (key, x) :: after, entry.2.Within σ.cells.size) :
    AlikeIn σ
      (.map (Entries.ofPairs (Entries.ofFields (renderedFields f (before ++ (key, x) :: after)))))
        (.map (Entries.ofPairs (Entries.ofFields
          (renderedFields f (before ++ (key, y) :: after))))) ↔
      key.shown ∈ after.map (·.1.shown) ∨ AlikeIn σ (rendered f x) (rendered f y) := by
  have hmade := Entries.forall_ofPairs (within_renderedFields hf hwithin)
  simp only [renderedFields_append, renderedFields] at hmade ⊢
  by_cases hhidden : key.shown ∈ (renderedFields f after).map (·.1)
  · -- Neither of the values shows.
    obtain ⟨es, hes⟩ := Entries.ofPairs_of_hidden (renderedFields f before) hhidden
    rw [hes] at hmade
    rw [hes, hes]
    rw [names_renderedFields] at hhidden
    exact iff_of_true (alikeIn_refl (.map hmade)) (.inl hhidden)
  · obtain ⟨front, back, hes⟩ := Entries.ofPairs_of_last (renderedFields f before) hhidden
    rw [hes] at hmade
    rw [hes, hes, alikeIn_map_iff, correspond_around_iff]
    · rw [names_renderedFields] at hhidden
      exact (or_iff_right hhidden).symm
    · exact fun entry hentry => alikeIn_refl (hmade entry (List.mem_append_left _ hentry))
    · exact fun entry hentry =>
        alikeIn_refl (hmade entry (List.mem_append_right _ (List.mem_cons_of_mem _ hentry)))

/-- Rendering a record in which at most one value has sources leaves all but that value as it is. -/
theorem rendered_record (hrecord : Entries.IsRecord (before ++ (key, x) :: after))
    (hbefore : sourcesOfEntries before = []) (hafter : sourcesOfEntries after = []) :
    Entries.ofPairs (Entries.ofFields (renderedFields f (before ++ (key, y) :: after))) =
      before ++ (key, rendered f y) :: after := by
  obtain ⟨hkeys, ⟨name, rfl⟩, hkeys'⟩ :=
    forall_around_iff.mp fun entry hentry => hrecord.text_key hentry
  have hfields : Entries.ofFields (renderedFields f (before ++ (.text name, y) :: after)) =
      before ++ (.text name, rendered f y) :: after := by
    rw [renderedFields_append, renderedFields, Entries.ofFields_append, Entries.ofFields_cons,
      renderedFields_of_literal hkeys hbefore, renderedFields_of_literal hkeys' hafter]
    rfl
  -- The keys are those of the record, so the new entries are one too.
  have hother : Entries.IsRecord (before ++ (.text name, rendered f y) :: after) :=
    Entries.isRecord_of_keys hrecord (by simp)
  rw [hfields, hother.ofPairs_eq]

/-- A map without sources next to one with a source in the place of one of its values. -/
theorem alikeIn_literal_iff (hnone : sourcesOfEntries (before ++ (key, x) :: after) = [])
    (hwithin : ∀ entry ∈ before ++ (key, x) :: after, entry.2.Within σ.cells.size) :
    AlikeIn σ (.map (before ++ (key, x) :: after))
        (.map (Entries.ofPairs (Entries.ofFields
          (renderedFields f (before ++ (key, y) :: after))))) ↔
      Entries.IsRecord (before ++ (key, x) :: after) ∧ AlikeIn σ (rendered f x) (rendered f y) := by
  rw [sourcesOfEntries_append, sourcesOfEntries, List.append_eq_nil_iff, List.append_eq_nil_iff]
    at hnone
  obtain ⟨hbefore, hx, hafter⟩ := hnone
  -- On a record rendering leaves the keys alone, and so the maps differ in the one value only.
  have hvalue : Entries.IsRecord (before ++ (key, x) :: after) →
      (AlikeIn σ (.map (before ++ (key, x) :: after))
        (.map (Entries.ofPairs (Entries.ofFields
          (renderedFields f (before ++ (key, y) :: after))))) ↔
        AlikeIn σ (rendered f x) (rendered f y)) := by
    intro hrecord
    rw [rendered_record hrecord hbefore hafter, rendered_of_literal hx, alikeIn_map_iff]
    apply correspond_around_iff
    · exact fun entry hentry => alikeIn_refl (hwithin entry (List.mem_append_left _ hentry))
    · exact fun entry hentry =>
        alikeIn_refl (hwithin entry (List.mem_append_right _ (List.mem_cons_of_mem _ hentry)))
  constructor
  · intro h
    -- The other map is a record, and so one with the same keys is.
    have hrecord :=
      Entries.isRecord_of_keys (Entries.isRecord_ofPairs _) (alikeIn_map_iff.mp h).keys
    exact ⟨hrecord, (hvalue hrecord).mp h⟩
  · rintro ⟨hrecord, h⟩
    exact (hvalue hrecord).mpr h

end

theorem sources_fill_ne_nil {site : Site} (hv : sources v = []) (hplain : site.Plain v)
    (hm : markedSource? m = some source) : sources (site.fill m) ≠ [] := by
  obtain ⟨first, second, -, hsources⟩ := exists_sources_fill hv hplain hm
  simp [hsources]

/-- **A replaced literal** leaves what is rendered alike exactly if the containers around
it keep their form. -/
theorem alikeIn_fill_iff {site : Site} (hf : ∀ source, (f source).Within σ.cells.size)
    (hv : sources v = []) (hplain : site.Plain v) (hm : markedSource? m = some source)
    (hraw : (site.fill v).Within σ.cells.size) (hshows : Shows σ.cells.size σ (f source) v) :
    AlikeIn σ (rendered f (site.fill v)) (rendered f (site.fill m)) ↔ site.Keeps v := by
  induction site with
  | whole =>
    rw [Site.fill, Site.fill, rendered_of_literal hv, rendered_of_marked hm]
    exact iff_of_true ⟨v, hraw.shows, hshows⟩ trivial
  | listItem before inner after ih =>
    obtain ⟨hbefore, hinner, hafter⟩ := forall_around_iff.mp hraw.items
    simp only [Site.fill, rendered]
    rw [alikeIn_renderedItems_iff hf hbefore hafter, ih hplain hinner]
    rfl
  | tupleItem before inner after ih =>
    obtain ⟨hbefore, hinner, hafter⟩ := forall_around_iff.mp hraw.parts
    have hsome : sourcesOfItems (before ++ inner.fill m :: after) ≠ [] := by
      simpa only [Site.fill, sources]
        using @sources_fill_ne_nil v m source (.tupleItem before inner after) hv hplain hm
    simp only [Site.fill, rendered, if_neg hsome]
    -- With the marker there is a list, so there has to be one without it.
    by_cases hnone : sourcesOfItems (before ++ inner.fill v :: after) = []
    · rw [if_pos hnone]
      exact iff_of_false not_alikeIn_tuple_list fun h => h.1 hnone
    · rw [if_neg hnone, alikeIn_renderedItems_iff hf hbefore hafter, ih hplain hinner]
      exact (and_iff_right hnone).symm
  | mapValue before key inner after ih =>
    have hinner : (inner.fill v).Within σ.cells.size := hraw.entries (key, inner.fill v) (by simp)
    have hunmarked := markedSource?_fill inner before after key hm
    have hsome : sourcesOfEntries (before ++ (key, inner.fill m) :: after) ≠ [] := by
      simpa only [Site.fill, sources, hunmarked] using
        @sources_fill_ne_nil v m source (.mapValue before key inner after) hv hplain hm
    simp only [Site.fill, rendered, hplain.1, hunmarked, if_neg hsome, Site.Keeps]
    by_cases hnone : sourcesOfEntries (before ++ (key, inner.fill v) :: after) = []
    · rw [if_pos hnone, if_pos hnone, alikeIn_literal_iff hnone hraw.entries, ih hplain.2 hinner]
    · rw [if_neg hnone, if_neg hnone, alikeIn_renderedFields_iff hf hraw.entries,
        ih hplain.2 hinner]

/-! ## §5 Compiling and resolving -/

variable {cache cache' : SourceCache}

/-- What compiling and resolving a raw value comes to. -/
def outcome (cache : SourceCache) (context : Value) (σ : Store) (raw : Value) :
    Except Raised (Value × Store) := do
  let b ← (compile raw cache).1
  told (resolve context b σ)

/-- The first failure of some sources: they are all read before the first one is evaluated. -/
def failure (σ : Store) (context : Value) (sources : List String) : Option Raised :=
  (firstFailure Expression.parse sources).or (firstFailure (valueOf σ context) sources)

/-- **Compiling and resolving** fails as the sources do, and else gives what the
value is rendered as. -/
theorem outcome_cases (hcache : cache.Sound Expression.parse) (hσ : σ.Closed)
    (hcontext : context.Within σ.cells.size) (hraw : raw.Within σ.cells.size) :
    (∃ e, failure σ context (sources raw) = some e ∧ outcome cache context σ raw = .error e) ∨
    (failure σ context (sources raw) = none ∧
      ∃ v τ, outcome cache context σ raw = .ok (v, τ) ∧ Rendered context σ σ raw (v, τ)) := by
  obtain ⟨hcompile, -⟩ := compile_renders raw hcache
  unfold Follows at hcompile
  split at hcompile
  · rename_i e hparse
    exact .inl ⟨e, by rw [failure, hparse]; rfl, by rw [outcome, hcompile]; rfl⟩
  · rename_i hparse
    obtain ⟨b, hb, hrenders⟩ := hcompile
    have houtcome : outcome cache context σ raw = told (resolve context b σ) := by
      rw [outcome, hb]; rfl
    have hfailure : failure σ context (sources raw) =
        firstFailure (valueOf σ context) (sources raw) := by
      rw [failure, hparse]
      rfl
    have hresolves := hrenders.resolves hσ hcontext hraw (.refl σ)
    rw [houtcome, hfailure]
    unfold Follows at hresolves
    split at hresolves
    · rename_i e hvalue
      exact .inl ⟨e, hvalue, hresolves⟩
    · rename_i hvalue
      obtain ⟨result, hresult, hrendered⟩ := hresolves
      exact .inr ⟨hvalue, result.1, result.2, hresult, hrendered⟩

theorem within_fill {site : Site} (h : (site.fill v).Within n) (hm : m.Within n) :
    (site.fill m).Within n := by
  induction site with
  | whole => exact hm
  | listItem before inner after ih =>
    obtain ⟨hbefore, hinner, hafter⟩ := forall_around_iff.mp h.items
    exact .list (forall_around_iff.mpr ⟨hbefore, ih hinner, hafter⟩)
  | tupleItem before inner after ih =>
    obtain ⟨hbefore, hinner, hafter⟩ := forall_around_iff.mp h.parts
    exact .tuple (forall_around_iff.mpr ⟨hbefore, ih hinner, hafter⟩)
  | mapValue before key inner after ih =>
    obtain ⟨hbefore, hinner, hafter⟩ := forall_around_iff.mp h.entries
    exact .map (forall_around_iff.mpr ⟨hbefore, ih hinner, hafter⟩)

/-- Raw values whose sources fail alike come to alike results exactly if they fail or what they are
rendered as is alike. -/
theorem outcome_alike_iff {raw' : Value} (hcache : cache.Sound Expression.parse)
    (hcache' : cache'.Sound Expression.parse) (hσ : σ.Closed)
    (hcontext : context.Within σ.cells.size) (hraw : raw.Within σ.cells.size)
    (hraw' : raw'.Within σ.cells.size)
    (hfailure : failure σ context (sources raw') = failure σ context (sources raw)) :
    Alike σ.cells.size (outcome cache context σ raw) (outcome cache' context σ raw') ↔
      (∃ e, outcome cache context σ raw = .error e) ∨
        AlikeIn σ (rendered (valueIn σ context) raw) (rendered (valueIn σ context) raw') := by
  rcases outcome_cases hcache hσ hcontext hraw
      with ⟨e, he, hfails⟩ | ⟨hnone, x, τ, hx, hextends, hlaid⟩
  · rcases outcome_cases hcache' hσ hcontext hraw' with ⟨e', he', hfails'⟩ | ⟨hnone', -⟩
    · rw [hfailure, he] at he'
      obtain rfl := Option.some.inj he'
      rw [hfails, hfails']
      exact iff_of_true (.failed e) (.inl ⟨e, rfl⟩)
    · rw [hfailure, he] at hnone'
      cases hnone'
  · rcases outcome_cases hcache' hσ hcontext hraw'
        with ⟨e', he', -⟩ | ⟨-, y, ρ, hy, hextends', hlaid'⟩
    · rw [hfailure, hnone] at he'
      cases he'
    · rw [hx, hy, hlaid.alike_iff hσ hlaid' hextends hextends']
      simp

/-- A marker whose source has a value changes nothing about how sources fail. -/
theorem failure_fill {site : Site} {w : Value} (hv : sources v = []) (hplain : site.Plain v)
    (hm : markedSource? m = some source) (hvalue : valueOf σ context source = .ok w) :
    failure σ context (sources (site.fill m)) = failure σ context (sources (site.fill v)) := by
  obtain ⟨first, second, hfirst, hsecond⟩ := exists_sources_fill hv hplain hm
  obtain ⟨e, he, -⟩ := bind_ok_iff.mp hvalue
  rw [hfirst, hsecond, failure, failure, firstFailure_insert he, firstFailure_insert hvalue]

/-- **When a replacement does not show**: a literal in a raw value is replaced by a marker of an
expression that evaluates to it. Compiling and resolving then comes to alike results, whatever the
caches have been through, exactly if the value without the marker fails already or the containers
around the place keep their form. -/
theorem replace_alike_iff {site : Site} {w : Value} (hcache : cache.Reachable Expression.parse)
    (hcache' : cache'.Reachable Expression.parse) (hσ : σ.Closed)
    (hcontext : context.Within σ.cells.size) (hraw : (site.fill v).Within σ.cells.size)
    (hv : sources v = []) (hplain : site.Plain v) (hm : markedSource? m = some source)
    (hvalue : valueOf σ context source = .ok w) (hshows : Shows σ.cells.size σ w v) :
    Alike σ.cells.size (outcome cache context σ (site.fill v))
      (outcome cache' context σ (site.fill m)) ↔
      (∃ e, outcome cache context σ (site.fill v) = .error e) ∨ site.Keeps v := by
  have hraw' : (site.fill m).Within σ.cells.size := within_fill hraw (within_of_marked hm)
  rw [outcome_alike_iff hcache.sound hcache'.sound hσ hcontext hraw hraw'
    (failure_fill hv hplain hm hvalue)]
  rw [alikeIn_fill_iff (within_valueIn hσ hcontext) hv hplain hm hraw
    (valueIn_of_ok hvalue ▸ hshows)]

theorem closed_empty : Store.empty.Closed :=
  fun address cell hcell => by simp [Store.empty, Store.cell?] at hcell

theorem within_sevenContext : sevenContext.Within 0 := .map fun entry hentry => by
  obtain rfl := List.mem_singleton.mp hentry
  exact .atom _

/-- A map of two atoms is within bounds. -/
theorem within_pair (key key' : Scalar) (s s' : Scalar) :
    (Value.map [(key, .atom s), (key', .atom s')]).Within n :=
  .map fun entry hentry => by
    simp only [List.mem_cons, List.not_mem_nil, or_false] at hentry
    rcases hentry with rfl | rfl <;> exact .atom _

/-- The second value of a map with texts for keys. -/
def namedPlace : Site := .mapValue [(.text "first", .text "a")] (.text "second") .whole []

/-- In a record an expression can take the place of a literal. -/
theorem replace_alike_in_record :
    Alike 0 (outcome {} sevenContext .empty (namedPlace.fill (.int 7)))
      (outcome {} sevenContext .empty (namedPlace.fill (.atom (.marker "input")))) := by
  have hcache : Cache.Reachable Expression.parse ({} : SourceCache) := .empty true (by decide)
  have hraw : (namedPlace.fill (.int 7)).Within 0 := within_pair _ _ _ _
  have hrecord : Entries.IsRecord [(.text "first", .text "a"), (.text "second", .int 7)] :=
    ⟨[("first", .text "a"), ("second", .int 7)], by decide, rfl⟩
  exact (replace_alike_iff hcache hcache closed_empty within_sevenContext hraw rfl
    ⟨rfl, trivial⟩ rfl valueOf_input (.atom _)).mpr (.inr ⟨hrecord, trivial⟩)

/-- The second value of a map with a number and the text of that number for keys. -/
def numberedPlace : Site := .mapValue [(.int 1, .text "a")] (.text "1") .whole []

/-- **A replacement that shows**: next to a number as a key, an expression in the place of a literal
makes the number a text, which hides the first entry. -/
theorem not_forall_replace_alike :
    ¬ ∀ (site : Site) (v m w context : Value) (source : String) (σ : Store)
    (cache cache' : SourceCache), cache.Reachable Expression.parse →
    cache'.Reachable Expression.parse → σ.Closed →
    context.Within σ.cells.size → (site.fill v).Within σ.cells.size → sources v = [] →
    site.Plain v →
    markedSource? m = some source → valueOf σ context source = .ok w → Shows σ.cells.size σ w v →
      Alike σ.cells.size (outcome cache context σ (site.fill v))
        (outcome cache' context σ (site.fill m)) := by
  intro hall
  have hcache : Cache.Reachable Expression.parse ({} : SourceCache) := .empty true (by decide)
  have hraw : (numberedPlace.fill (.int 7)).Within 0 := within_pair _ _ _ _
  have hplain : numberedPlace.Plain (.int 7) := ⟨rfl, trivial⟩
  have hmarked : markedSource? (.atom (.marker "input")) = some "input" := rfl
  have halike := hall numberedPlace (.int 7) (.atom (.marker "input"))
    (.int 7) sevenContext "input" .empty {} {} hcache
    hcache closed_empty within_sevenContext hraw rfl hplain hmarked valueOf_input (.atom _)
  rw [outcome_alike_iff hcache.sound hcache.sound closed_empty within_sevenContext hraw
    (within_fill hraw (.atom _)) (failure_fill rfl hplain hmarked valueOf_input)] at halike
  rcases halike with ⟨e, herror⟩ | halike
  · -- Without an expression nothing fails.
    cases herror
  · have hshows : Shows 0 .empty (valueIn .empty sevenContext "input") (.int 7) := by
      rw [valueIn_of_ok valueOf_input]
      exact .atom _
    rw [alikeIn_fill_iff (within_valueIn closed_empty within_sevenContext) rfl hplain hmarked hraw
      hshows] at halike
    -- The number is a key that is no text.
    obtain ⟨name, hname⟩ := Entries.IsRecord.text_key halike.1 (List.mem_cons_self ..)
    cases hname

end Binding

end Switchyard
