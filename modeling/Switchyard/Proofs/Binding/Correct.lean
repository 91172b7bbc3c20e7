import Switchyard.Proofs.Binding.Compilation
import Switchyard.Proofs.Binding.Interpretation
import Switchyard.Proofs.Cache.Sound

/-!
# Compiling is correct

Compiling a raw configuration and resolving what comes out is the same as interpreting the
configuration where it stands, whatever the cache of expressions has been through. Compilation
itself fails as the first marked source does that cannot be read.

Main statements: `compile_spec`, and with the interpretation of configuration
`compile_resolve_correct`.
-/

namespace Switchyard

/-! ## §1 Compilations that follow sources -/

namespace Compilation

open Binding (Follows)

variable {α β : Type} {cache : SourceCache} {first second : List String} {good : α → Prop}
  {better : β → Prop}

/-- **A compilation reads sources**: it fails as the first of them does that cannot be read, and
else it succeeds with a result as it should be; the cache stays sound in any case. -/
def Reads (sources : List String) (result : Except Raised α × SourceCache)
    (good : α → Prop) : Prop :=
  Follows Expression.parse sources result.1 good ∧ result.2.Sound Expression.parse

namespace Reads

theorem pure {x : α} (hcache : cache.Sound Expression.parse) (h : good x) :
    Reads [] ((pure x : Compilation α) cache) good := ⟨.nil h, hcache⟩

/-- Compilations in a row read their sources in a row. -/
theorem bind {x : Compilation α} {k : α → Compilation β} (h : Reads first (x cache) good)
    (hk : ∀ y cache', good y → cache'.Sound Expression.parse → Reads second (k y cache') better) :
    Reads (first ++ second) ((x >>= k) cache) better := by
  obtain ⟨hfollows, hsound⟩ := h
  -- The second compilation begins with the cache that the first one leaves.
  rw [run_bind]
  rcases hx : x cache with ⟨r, cache₁⟩
  rw [hx] at hfollows hsound
  have hboth := hfollows.bind (k := fun y => (k y cache₁).1) fun y hy => (hk y cache₁ hy hsound).1
  cases r with
  | error e => exact ⟨hboth, hsound⟩
  | ok y => exact ⟨hboth, (hk y cache₁ hfollows.of_ok.2 hsound).2⟩

/-- Changing the result of a compilation changes nothing about what it reads. -/
theorem map {x : Compilation α} {k : α → β} (h : Reads first (x cache) good)
    (hk : ∀ y, good y → better (k y)) :
    Reads first ((x >>= fun y => Pure.pure (k y)) cache) better := by
  rw [← List.append_nil first]
  exact h.bind fun y cache' hy hcache' => .pure hcache' (hk y hy)

/-- Reading through a sound cache reads the source. -/
theorem source {s : String} {k : Expression → α} (hcache : cache.Sound Expression.parse)
    (h : ∀ e, Expression.parse s = .ok e → good (k e)) :
    Reads [s] ((Binding.readCached s >>= fun e => Pure.pure (k e)) cache) good := by
  obtain ⟨hfetch, hsound⟩ := Cache.fetch_of_sound hcache s
  -- Fetching the source is reading it, since the cache does not show.
  have hread : Reads [s] (Binding.readCached s cache) fun e => Expression.parse s = .ok e := by
    refine ⟨?_, hsound⟩
    rw [Binding.readCached, hfetch]
    have hsource : Follows Expression.parse [s] (Expression.parse s >>= fun e => Pure.pure e)
      fun e => Expression.parse s = .ok e := .source fun e he => he
    cases hparse : Expression.parse s <;> simpa [hparse] using hsource
  exact hread.map h

end Reads

end Compilation

/-! ## §2 Bindings that stand for raw values -/

namespace Binding

open Compilation (Reads)

/-- How a resolution fails is told as it is raised. -/
def told {α : Type} (result : Except Expression.EvalProblem α) : Except Raised α :=
  result.mapError (·.raised)

theorem told_bind {α β : Type} (x : Except Expression.EvalProblem α)
    (k : α → Except Expression.EvalProblem β) : told (x >>= k) = told x >>= fun y =>
      told (k y) := by
  cases x <;> rfl

/-- **A binding stands for a raw value**: it resolves to what the value is interpreted as, and if
nothing has to be evaluated it is the value as it was written. -/
structure StandsFor (raw : Value) (b : Binding) : Prop where
  resolves : ∀ context σ, told (resolve context b σ) = interpret context raw σ
  literal : b.isLiteral = true → b = .literal raw

/-- Bindings stand for the items of a sequence. -/
structure StandForItems (items : List Value) (bs : List Binding) : Prop where
  resolves : ∀ context σ, told (resolveItems context bs σ) = interpretItems context items σ
  literal : bs.all isLiteral = true → ∀ context σ, interpretItems context items σ =
    .ok (Store.layOutItems items σ)

/-- Bindings stand for the values of a map. -/
structure StandForEntries (entries : Entries) (bs : List (String × Binding)) : Prop where
  resolves : ∀ context σ, told (resolveEntries context bs σ) = interpretEntries context entries σ
  literal : bs.all (·.2.isLiteral) = true →
    ∀ context σ, interpretEntries context entries σ = .ok (Store.layOutEntries entries σ)

variable {raw : Value} {b : Binding} {context : Value} {σ : Store}

/-- What stands literally for a value lays it out. -/
theorem StandsFor.interpret_of_literal (h : StandsFor raw b) (hliteral : b.isLiteral = true)
    (context : Value) (σ : Store) : interpret context raw σ = .ok (σ.layOut raw) := by
  rw [← h.resolves context σ, h.literal hliteral]
  rfl

/-- A marked source is stood for by its expression. -/
theorem standsFor_marked {source : String} {e : Expression}
    (hinterpret : ∀ context σ, interpret context raw σ =
      valueOf σ context source >>= fun v => pure (v, σ))
    (he : Expression.parse source = .ok e) : StandsFor raw (.expression e) where
  resolves context σ := by
    have hvalue : valueOf σ context source = told (e.evaluate σ context) := by
      rw [valueOf, he]
      rfl
    rw [hinterpret, hvalue, resolve, told_bind]
    rfl
  literal h := by cases h

theorem StandForItems.nil : StandForItems [] [] := ⟨fun _ _ => rfl, fun _ _ _ => rfl⟩

theorem StandForItems.cons {v : Value} {items : List Value} {bs : List Binding} (hv : StandsFor v b)
    (h : StandForItems items bs) : StandForItems (v :: items) (b :: bs) where
  resolves context σ := by
    simp only [resolveItems, interpretItems, told_bind, hv.resolves, h.resolves]
    rfl
  literal hall context σ := by
    obtain ⟨hb, hbs⟩ := Bool.and_eq_true_iff.mp (List.all_cons ▸ hall)
    simp only [interpretItems, hv.interpret_of_literal hb, bind, Except.bind, h.literal hbs]
    rfl

theorem StandForEntries.nil : StandForEntries [] [] := ⟨fun _ _ => rfl, fun _ _ _ => rfl⟩

theorem StandForEntries.cons {name : String} {v : Value} {entries : Entries}
    {bs : List (String × Binding)} (hv : StandsFor v b) (h : StandForEntries entries bs) :
    StandForEntries ((.text name, v) :: entries) (((Scalar.text name).shown, b) :: bs) where
  resolves context σ := by
    simp only [resolveEntries, interpretEntries, told_bind, hv.resolves, h.resolves]
    rfl
  literal hall context σ := by
    obtain ⟨hb, hbs⟩ := Bool.and_eq_true_iff.mp (List.all_cons ▸ hall)
    simp only [interpretEntries, hv.interpret_of_literal hb, bind, Except.bind, h.literal hbs]
    rfl

/-- What the items of a list are stood for by makes what the list is stood for by. -/
theorem StandForItems.list {items : List Value} {bs : List Binding} (h : StandForItems items bs) :
    StandsFor (.list items) (if bs.all isLiteral then .literal (.list items) else .list bs) := by
  -- A list without expressions is kept as it was written; else its items are resolved one by one.
  split_ifs with hall
  · refine ⟨fun context σ => ?_, fun _ => rfl⟩
    simp only [interpret, h.literal hall]
    rfl
  · refine ⟨fun context σ => ?_, fun hliteral => by cases hliteral⟩
    simp only [resolve, interpret, told_bind, h.resolves]
    rfl

/-- Interpreting the values of a map leaves its keys alone. -/
theorem keys_of_interpretEntries {entries : Entries} {result : Entries × Store}
    (h : interpretEntries context entries σ = .ok result) :
    result.1.map (·.1) = entries.map (·.1) := by
  induction entries generalizing σ result with
  | nil =>
    obtain rfl := Except.ok.inj h
    rfl
  | cons entry rest ih =>
    obtain ⟨first, -, h⟩ := bind_ok_iff.mp h
    obtain ⟨others, hothers, h⟩ := bind_ok_iff.mp h
    obtain rfl := Except.ok.inj h
    simp [ih hothers]

/-- What the values of a record are stood for by makes what the record is stood for by. -/
theorem StandForEntries.map {entries : Entries} {bs : List (String × Binding)}
    (h : StandForEntries entries bs) (hrecord : entries.IsRecord)
    (hunmarked : markedSource? (.map entries) = none) :
    StandsFor (.map entries) (if bs.all (·.2.isLiteral) then .literal (.map entries)
      else .map bs) := by
  have hinterpret : ∀ context σ, interpret context (.map entries) σ =
      interpretEntries context entries σ >>= fun result =>
        pure (result.2.alloc (.map result.1)) := by
    intro context σ
    simp only [interpret]
    split
    · rename_i source hmarked
      rw [hunmarked] at hmarked
      cases hmarked
    · rfl
  -- A map without expressions is kept as it was written; else its values are resolved one by one.
  split_ifs with hall
  · refine ⟨fun context σ => ?_, fun _ => rfl⟩
    rw [hinterpret, h.literal hall]
    rfl
  · refine ⟨fun context σ => ?_, fun hliteral => by cases hliteral⟩
    rw [hinterpret, ← h.resolves, resolve, told_bind]
    cases hresolve : resolveEntries context bs σ with
    | error problem => rfl
    | ok result =>
      -- The keys are those of a record, so none of the pairs takes the place of another.
      have hkeys := keys_of_interpretEntries (h.resolves context σ ▸ congrArg told hresolve)
      obtain ⟨fields, hnodup, hfields⟩ := Entries.isRecord_of_keys hrecord hkeys
      have hpairs : Entries.ofPairs result.1 = result.1 := by
        rw [hfields]
        exact Entries.ofPairs_ofFields hnodup
      show told (.ok (result.2.alloc (.map (Entries.ofPairs result.1)))) =
          .ok (result.2.alloc (.map result.1))
      rw [hpairs]
      rfl

/-! ## §3 Compilation -/

variable {cache : SourceCache}

/-- A scalar is compiled to itself unless it marks a source. -/
theorem compile_atom_spec (hcache : cache.Sound Expression.parse) (s : Scalar) :
    Reads (sources (.atom s)) (compile (.atom s) cache) (StandsFor (.atom s)) := by
  cases s with
  | marker source =>
    simp only [sources, compile]
    exact .source hcache fun e he => standsFor_marked (fun _ _ => by rw [interpret]) he
  | null | bool _ | int _ | float _ | text _ | bytes _ | foreign _ _ =>
    simp only [sources, compile]
    exact .pure hcache ⟨fun _ _ => rfl, fun _ => rfl⟩

mutual

/-- **Compilation** fails as the first marked source does that cannot be read, and else gives a
binding that stands for the raw value. -/
theorem compile_spec :
    ∀ (raw : Value) {cache : SourceCache}, raw.IsConfig → cache.Sound Expression.parse →
    Reads (sources raw) (compile raw cache) (StandsFor raw)
  | .atom s, _, _, hcache => compile_atom_spec hcache s
  | .list items, _, h, hcache => by
    simp only [sources, compile]
    exact (compileItems_spec items h.items hcache).map fun bs hbs => hbs.list
  | .map entries, _, h, hcache => by
    cases hmarked : markedSource? (.map entries) with
    | some source =>
      simp only [sources, compile, hmarked]
      exact .source hcache fun e he =>
        standsFor_marked (fun _ _ => by simp only [interpret, hmarked]) he
    | none =>
      simp only [sources, compile, hmarked]
      exact (compileEntries_spec entries (fun entry => h.entries.1.text_key) h.entries.2 hcache).map
        fun bs hbs => hbs.map h.entries.1 hmarked
  | .tuple _, _, h, _ => nomatch h
  | .shared _, _, h, _ => nomatch h

theorem compileItems_spec :
    ∀ (items : List Value) {cache : SourceCache}, (∀ v ∈ items, v.IsConfig) →
    cache.Sound Expression.parse →
    Reads (sourcesOfItems items) (compileItems items cache) (StandForItems items)
  | [], _, _, hcache => .pure hcache .nil
  | v :: rest, _, h, hcache => by
    simp only [sourcesOfItems, compileItems]
    refine (compile_spec v (h v (List.mem_cons_self ..)) hcache).bind fun b cache' hb hcache' => ?_
    exact (compileItems_spec rest (fun v hv => h v (List.mem_cons_of_mem _ hv)) hcache').map
      fun bs hbs => .cons hb hbs

theorem compileEntries_spec : ∀ (entries : List (Scalar × Value)) {cache : SourceCache},
    (∀ entry ∈ entries, ∃ name, entry.1 = .text name) → (∀ entry ∈ entries, entry.2.IsConfig) →
    cache.Sound Expression.parse →
      Reads (sourcesOfEntries entries) (compileEntries entries cache) (StandForEntries entries)
  | [], _, _, _, hcache => .pure hcache .nil
  | (k, v) :: rest, _, hkeys, h, hcache => by
    obtain ⟨name, rfl⟩ : ∃ name, k = .text name := hkeys (k, v) (List.mem_cons_self ..)
    simp only [sourcesOfEntries, compileEntries]
    refine (compile_spec v (h (.text name, v) (List.mem_cons_self ..)) hcache).bind
      fun b cache' hb hcache' => ?_
    exact (compileEntries_spec rest
      (fun entry hentry => hkeys entry (List.mem_cons_of_mem _ hentry))
      (fun entry hentry => h entry (List.mem_cons_of_mem _ hentry)) hcache').map fun bs hbs =>
        .cons hb hbs

end

/-! ## §4 Compiling and resolving -/

/-- A source that breaks the grammar. -/
def Malformed (source : String) : Prop :=
  ∃ what quoted position, Expression.parse source =
    .error (.fault (.malformed what quoted position))

/-- **Compiling and resolving is interpreting**: whatever state the cache has come to, compilation
fails exactly as the first marked source does that cannot be read; if all others can be, that is an
error of form exactly if a source is malformed. What comes out of it resolves in every context as
the raw value is interpreted there. If the store and the context refer to no cells but those that
are there, it does so exactly as the first marked source fails whose evaluation does, and else to
the raw value with every marker replaced. -/
theorem compile_resolve_correct {raw : Value} {cache : SourceCache} (hraw : raw.IsConfig)
    (hcache : cache.Reachable Expression.parse) :
    (∀ e, (compile raw cache).1 = .error e ↔ firstFailure Expression.parse (sources raw) = some e) ∧
    ((∀ source ∈ sources raw, (∃ e, Expression.parse source = .ok e) ∨ Malformed source) →
      ((∃ what quoted position, (compile raw cache).1 =
        .error (.fault (.malformed what quoted position))) ↔
        ∃ source ∈ sources raw, Malformed source)) ∧
    ∀ b, (compile raw cache).1 = .ok b → ∀ context σ,
      told (resolve context b σ) = interpret context raw σ ∧
      (σ.Closed → context.Within σ.cells.size →
        (∀ e, told (resolve context b σ) = .error e ↔
          firstFailure (valueOf σ context) (sources raw) = some e) ∧
        ∀ v τ, resolve context b σ = .ok (v, τ) → σ.Extends τ ∧ Replaces context σ τ raw v) := by
  obtain ⟨hcompile, -⟩ := compile_spec raw hraw hcache.sound
  refine ⟨fun e => hcompile.error_iff, fun hreadable => ⟨?_, ?_⟩, fun b hb context σ =>
    ⟨?_, fun hσ hcontext => ?_⟩⟩
  · rintro ⟨what, quoted, position, herror⟩
    obtain ⟨source, hsource, hfails⟩ := exists_of_firstFailure (hcompile.error_iff.mp herror)
    exact ⟨source, hsource, what, quoted, position, hfails⟩
  · rintro ⟨source, hsource, what, quoted, position, hmalformed⟩
    -- Some source fails, since the malformed one does.
    cases hfirst : firstFailure Expression.parse (sources raw) with
    | none =>
      obtain ⟨e, he⟩ := firstFailure_eq_none_iff.mp hfirst source hsource
      rw [he] at hmalformed
      cases hmalformed
    | some e =>
      -- The first failure is one of the sources, and those that fail are malformed.
      obtain ⟨source', hsource', hfails⟩ := exists_of_firstFailure hfirst
      rcases hreadable source' hsource' with ⟨e', he'⟩ | ⟨what', quoted', position', hmalformed'⟩
      · rw [he'] at hfails
        cases hfails
      · obtain rfl := Except.error.inj (hfails.symm.trans hmalformed')
        exact ⟨what', quoted', position', hcompile.error_iff.mpr hfirst⟩
  · -- The binding that compilation gives stands for the raw value.
    rw [hb] at hcompile
    exact hcompile.of_ok.2.resolves context σ
  · rw [hb] at hcompile
    have hresolves := hcompile.of_ok.2.resolves context σ
    have hspec := interpret_spec hσ hcontext raw hraw (.refl σ)
    rw [← hresolves] at hspec
    refine ⟨fun e => hspec.error_iff, fun v τ hv => ?_⟩
    rw [hv] at hspec
    exact hspec.of_ok.2

/-- Configuration with a marker and a list. -/
def markedConfig : Value :=
  .map [(.text "first", .atom (.marker "input")), (.text "second", .list [.int 1, .text "x"])]

theorem isConfig_markedConfig : markedConfig.IsConfig := by
  refine @Value.IsConfig.map
    [("first", .atom (.marker "input")), ("second", .list [.int 1, .text "x"])] (by simp) ?_
  intro field hfield
  simp only [List.mem_cons, List.not_mem_nil, or_false] at hfield
  rcases hfield with rfl | rfl
  · exact .atom _
  · refine .list fun v hv => ?_
    simp only [List.mem_cons, List.not_mem_nil, or_false] at hv
    rcases hv with rfl | rfl <;> exact .atom _

/-- Data with a number for its input. -/
def sevenContext : Value := .map [(.text "input", .int 7)]

theorem valueOf_input : valueOf .empty sevenContext "input" = .ok (.int 7) := by
  have hparse : Expression.parse "input" = .ok ⟨"input", .path [.name "input"]⟩ := by cbv
  rw [valueOf, hparse]
  rfl

/-- The configuration is compiled by an empty cache, and resolves to what replaces it. -/
theorem compile_resolve_markedConfig :
    ∃ b, (compile markedConfig {}).1 = .ok b ∧ ∃ v τ, resolve sevenContext b .empty = .ok (v, τ) ∧
      Store.empty.Extends τ ∧ Replaces sevenContext .empty τ markedConfig v := by
  have hcache : Cache.Reachable Expression.parse ({} : SourceCache) := .empty true (by decide)
  obtain ⟨herror, -, hok⟩ := compile_resolve_correct isConfig_markedConfig hcache
  have hparse : ∃ e, Expression.parse "input" = .ok e := ⟨⟨"input", .path [.name "input"]⟩, by cbv⟩
  have hsources : sources markedConfig = ["input"] := rfl
  -- The one source that is marked can be read.
  cases hb : (compile markedConfig {}).1 with
  | error e =>
    obtain ⟨e', he'⟩ := hparse
    have hfirst := (herror e).mp hb
    rw [hsources, firstFailure_singleton_of_ok he'] at hfirst
    cases hfirst
  | ok b =>
    have hclosed : Store.empty.Closed := fun address cell hcell => by
      simp [Store.empty, Store.cell?] at hcell
    have hcontext : sevenContext.Within Store.empty.cells.size := .map fun entry hentry => by
      obtain rfl := List.mem_singleton.mp hentry
      exact .atom _
    obtain ⟨hfails, hreplaces⟩ := (hok b hb sevenContext .empty).2 hclosed hcontext
    -- Its value is there, so resolving succeeds.
    cases hresolve : resolve sevenContext b .empty with
    | error problem =>
      have hfirst := (hfails problem.raised).mp (by rw [hresolve]; rfl)
      rw [hsources, firstFailure_singleton_of_ok valueOf_input] at hfirst
      cases hfirst
    | ok result =>
      obtain ⟨v, τ⟩ := result
      exact ⟨b, rfl, v, τ, hresolve, hreplaces v τ hresolve⟩

end Binding

end Switchyard
