import Switchyard.Cache
import Mathlib.Data.List.Dedup

/-!
# Histories of a cache

What happens to a cache is a history of operations. Each of them looks a source up, stores or reads
one, drops some, or changes the bound. A store and a look-up that succeeds *use* their source.

On the sources in the order of eviction an operation does one of five things, whatever it is called
and whatever its answer is. Everything about histories is proved from that.

Main statements: what an operation does (`after_turns`), and that a cache stays tidy (`Tidy.run`),
and orderly if its bound is positive (`Orderly.run`).
-/

namespace Switchyard.Cache

variable {α : Type}

/-! ## §1 Operations -/

/-- What can be asked of a cache. -/
inductive Operation (α : Type)
  | lookup (source : String)
  | store (source : String) (x : α)
  | fetch (read : String → Except Raised α) (source : String)
  | forget (source : String)
  | clear
  | resize (bound : Int)

variable {cache cache' : Cache α} {source : String} {op : Operation α}

/-- An operation that drops a source, if it is there. -/
def Operation.Drops (source : String) : Operation α → Prop
  | .forget other => other = source
  | .clear => True
  | .lookup _ | .store _ _ | .fetch _ _ | .resize _ => False

/-- An operation that leaves the bound as it is. -/
def Operation.KeepsBound : Operation α → Prop
  | .resize _ => False
  | .lookup _ | .store _ _ | .fetch _ _ | .forget _ | .clear => True

/-- The cached sources, the first to be evicted first. -/
def sources (cache : Cache α) : List String := cache.entries.map (·.1)

/-- The cache after an operation. -/
def after (cache : Cache α) : Operation α → Cache α
  | .lookup source => (cache.lookup source).2
  | .store source x => (cache.store source x).2
  | .fetch read source => (cache.fetch read source).2
  | .forget source => (cache.forget source).2
  | .clear => cache.clear
  | .resize bound => (cache.resize bound).2

/-- The cache after a history. -/
def run (cache : Cache α) (history : List (Operation α)) : Cache α := history.foldl after cache

/-- The source that an operation uses: that of a store, and that of a look-up if it is there. -/
def used? (cache : Cache α) : Operation α → Option String
  | .lookup source => if cache.contains source then some source else none
  | .store source _ => some source
  | .fetch read source =>
    if cache.contains source then some source
    -- What could be read is stored.
    else match read source with
      | .ok _ => some source
      | .error _ => none
  | .forget _ | .clear | .resize _ => none

/-- Whether an operation looks up a source that is there. -/
def hits (cache : Cache α) : Operation α → Bool
  | .lookup source | .fetch _ source => cache.contains source
  | .store _ _ | .forget _ | .clear | .resize _ => false

/-- The sources that are used in a history, one after another. -/
def uses (cache : Cache α) : List (Operation α) → List String
  | [] => []
  | op :: rest => (cache.used? op).toList ++ uses (cache.after op) rest

/-- What uses a source drops none. -/
theorem not_drops_of_used (h : cache.used? op = some source) (other : String) :
    ¬ op.Drops other := by
  cases op with
  | forget _ => cases h
  | clear => cases h
  | lookup _ => exact id
  | store _ _ => exact id
  | fetch _ _ => exact id
  | resize _ => exact id

@[simp] theorem run_nil : cache.run [] = cache := rfl

@[simp] theorem run_cons {rest : List (Operation α)} :
    cache.run (op :: rest) = (cache.after op).run rest := rfl

@[simp] theorem run_append {history more : List (Operation α)} :
    cache.run (history ++ more) = (cache.run history).run more :=
  List.foldl_append

/-! ## §2 Sources -/

theorem length_sources : cache.sources.length = cache.size := List.length_map ..

theorem contains_iff : cache.contains source = true ↔ source ∈ cache.sources := by
  simp [contains, sources]

theorem contains_eq_false_iff : cache.contains source = false ↔ source ∉ cache.sources := by
  rw [← contains_iff, Bool.not_eq_true]

/-- A source has an entry exactly if it is cached. -/
theorem isSome_find?_iff : (cache.find? source).isSome ↔ source ∈ cache.sources := by
  rw [← contains_iff, find?, Option.isSome_map, contains, List.find?_isSome]
  simp

theorem find?_eq_none (h : source ∉ cache.sources) : cache.find? source = none := by
  rw [← isSome_find?_iff, Option.not_isSome_iff_eq_none] at h
  exact h

theorem map_others : (cache.others source).map (·.1) = cache.sources.filter (· != source) := by
  rw [others, sources, List.filter_map]
  rfl

/-- **Dropping a source**: it is there and its entry goes, or it is not and nothing changes. -/
theorem forget_cases (cache : Cache α) (source : String) :
    (source ∈ cache.sources ∧
      cache.forget source = (true, recounted { cache with entries := cache.others source })) ∨
    (source ∉ cache.sources ∧ cache.forget source = (false, cache)) := by
  by_cases hmem : source ∈ cache.sources
  · exact .inl ⟨hmem, if_pos (contains_iff.mpr hmem)⟩
  · exact .inr ⟨hmem, if_neg (by rwa [contains_iff])⟩

/-! ## §3 What operations do to the order -/

/-- The order in which a source comes last. -/
def renewed (order : List String) (source : String) : List String :=
  order.filter (· != source) ++ [source]

/-- The last part of an order, as much of it as the bound allows. -/
def kept (bound : Int) (order : List String) : List String :=
  order.drop (order.length - bound.toNat)

theorem kept_of_length_le {bound : Int} {order : List String} (h : (order.length : Int) ≤ bound) :
    kept bound order = order := by
  rw [kept, Nat.sub_eq_zero_of_le (by omega), List.drop_zero]

theorem length_kept {bound : Int} {order : List String} :
    (kept bound order).length = min order.length bound.toNat := by
  rw [kept, List.length_drop]
  omega

/-- In an order that is renewed and kept within a positive bound the source still comes last. -/
theorem kept_renewed {bound : Int} (h : 1 ≤ bound) (order : List String) :
    kept bound (renewed order source) =
      (order.filter (· != source)).drop ((renewed order source).length - bound.toNat) ++
        [source] := by
  rw [kept, renewed, List.length_append, List.length_singleton]
  exact List.drop_append_of_le_length (by omega)

theorem renewed_sublist {order order' : List String} (h : order.Sublist order') :
    (renewed order source).Sublist (renewed order' source) :=
  (h.filter _).append_right _

theorem nodup_renewed {order : List String} (h : order.Nodup) : (renewed order source).Nodup :=
  List.Nodup.append (h.filter _) (List.nodup_singleton source) (by simp)

theorem filter_of_notMem {order : List String} (h : source ∉ order) :
    order.filter (· != source) = order := by
  rw [List.filter_eq_self]
  intro other hother
  simpa using ne_of_mem_of_not_mem hother h

theorem sources_forget : (cache.forget source).2.sources = cache.sources.filter (· != source) := by
  rcases cache.forget_cases source with ⟨-, hforget⟩ | ⟨hmem, hforget⟩
  · rw [hforget]
    exact map_others
  · rw [hforget, filter_of_notMem hmem]

theorem bound_forget : (cache.forget source).2.bound = cache.bound := by
  rcases cache.forget_cases source with ⟨-, hforget⟩ | ⟨-, hforget⟩
  · rw [hforget]
    rfl
  · rw [hforget]

theorem enabled_forget : (cache.forget source).2.enabled = cache.enabled := by
  rcases cache.forget_cases source with ⟨-, hforget⟩ | ⟨-, hforget⟩
  · rw [hforget]
    rfl
  · rw [hforget]

theorem length_renewed_of_notMem {order : List String} (h : source ∉ order) :
    (renewed order source).length = order.length + 1 := by
  rw [renewed, filter_of_notMem h, List.length_append, List.length_singleton]

theorem length_renewed_of_mem {order : List String} (hnodup : order.Nodup) (h : source ∈ order) :
    (renewed order source).length = order.length := by
  have hpos : 0 < order.length := List.length_pos_of_mem h
  rw [renewed, ← List.Nodup.erase_eq_filter hnodup, List.length_append, List.length_erase_of_mem h,
    List.length_singleton]
  omega

/-- **A tidy cache**: it is enabled, its bound is not negative and is met, and no
source comes twice. -/
structure Tidy (cache : Cache α) : Prop where
  enabled : cache.enabled = true
  bound : 0 ≤ cache.bound
  nodup : cache.sources.Nodup
  length : (cache.sources.length : Int) ≤ cache.bound

/-- **An orderly cache**: a tidy one with room for something, so that what was
used last is there. -/
structure Orderly (cache : Cache α) : Prop extends cache.Tidy where
  positive : 1 ≤ cache.bound

/-- **What an operation does**: it uses a source, which then comes last, and what is too
much is evicted; it drops a source or all of them; it changes the bound; or it leaves
everything as it is. -/
inductive Turns (cache cache' : Cache α) (op : Operation α) : Prop
  | used {source : String} :
      cache.used? op = some source →
      cache'.sources = kept cache.bound (renewed cache.sources source) →
      cache'.bound = cache.bound → Turns cache cache' op
  | forgot {source : String} :
      op = .forget source → cache'.sources = cache.sources.filter (· != source) →
      cache'.bound = cache.bound → Turns cache cache' op
  | cleared :
      op = .clear → cache'.sources = [] → cache'.bound = cache.bound → Turns cache cache' op
  | resized {bound : Int} :
      op = .resize bound → 1 ≤ bound → cache'.sources = kept bound cache.sources →
      cache'.bound = bound →
      Turns cache cache' op
  | stayed :
      cache.used? op = none → (∀ source, ¬ op.Drops source) → cache'.sources = cache.sources →
      cache'.bound = cache.bound → Turns cache cache' op

namespace Tidy

variable (h : cache.Tidy)

include h

/-- Renewing a source that is there takes no room. -/
theorem kept_renewed_of_mem (hmem : source ∈ cache.sources) :
    kept cache.bound (renewed cache.sources source) = renewed cache.sources source :=
  kept_of_length_le (by rw [length_renewed_of_mem h.nodup hmem]; exact h.length)

theorem lookup_of_mem (hmem : source ∈ cache.sources) :
    (cache.lookup source).1.isSome ∧ (cache.lookup source).2.sources =
      renewed cache.sources source ∧
      (cache.lookup source).2.bound = cache.bound ∧ (cache.lookup source).2.enabled = true ∧
      (cache.lookup source).2.stats = { cache.stats with hits := cache.stats.hits + 1 } := by
  obtain ⟨x, hx⟩ := Option.isSome_iff_exists.mp (isSome_find?_iff.mpr hmem)
  have hlookup : cache.lookup source = (some x, { cache with
      entries := cache.others source ++ [(source, x)]
      stats := { cache.stats with hits := cache.stats.hits + 1 } }) := by
    simp only [lookup, h.enabled, hx]
    rfl
  rw [hlookup]
  refine ⟨rfl, ?_, rfl, h.enabled, rfl⟩
  rw [renewed, ← map_others, sources, List.map_append]
  rfl

theorem lookup_of_notMem (hmem : source ∉ cache.sources) :
    cache.lookup source =
      (none, { cache with stats := { cache.stats with misses := cache.stats.misses + 1 } }) := by
  simp only [lookup, h.enabled, find?_eq_none hmem]
  rfl

theorem store_ok (source : String) (x : α) :
    ∃ stored, cache.store source x = (.ok (), stored) ∧
      stored.sources = kept cache.bound (renewed cache.sources source) ∧
        stored.bound = cache.bound ∧
      stored.enabled = true ∧ stored.stats =
        { cache.stats with
          evictions :=
            cache.stats.evictions + ((renewed cache.sources source).length - cache.bound.toNat)
          current := stored.size } := by
  have hmet : ¬ cache.bound < 0 := by
    have := h.bound
    omega
  have hrenewed : (cache.others source ++ [(source, x)]).map (·.1) =
      renewed cache.sources source := by
    rw [renewed, ← map_others, List.map_append]
    rfl
  have hstore : cache.store source x =
      (.ok (), (({ cache with entries := cache.others source ++ [(source, x)] } : Cache α).shrink
        cache.bound.toNat).recounted) := by
    simp only [store, h.enabled, Bool.not_true, Bool.false_eq_true, if_false, if_neg hmet]
  refine ⟨_, hstore, ?_, rfl, h.enabled, ?_⟩
  · rw [kept, ← hrenewed, List.length_map]
    exact List.map_drop
  · rw [← hrenewed, List.length_map]
    rfl

/-- Reading a source that is there uses it. -/
theorem fetch_of_mem (read : String → Except Raised α) (hmem : source ∈ cache.sources) :
    (cache.fetch read source).2 = (cache.lookup source).2 := by
  obtain ⟨x, hx⟩ := Option.isSome_iff_exists.mp (h.lookup_of_mem hmem).1
  unfold fetch
  split
  · rename_i heq
    rw [heq]
  · rename_i heq
    rw [heq] at hx
    cases hx

theorem fetch_of_error {read : String → Except Raised α} {e : Raised}
    (hmem : source ∉ cache.sources) (hread : read source = .error e) :
    cache.fetch read source =
      (.error e,
        { cache with stats := { cache.stats with misses := cache.stats.misses + 1 } }) := by
  simp only [fetch, h.lookup_of_notMem hmem, hread]

theorem fetch_of_ok {read : String → Except Raised α} {x : α} (hmem : source ∉ cache.sources)
    (hread : read source = .ok x) :
    (cache.fetch read source).2.sources = kept cache.bound (renewed cache.sources source) ∧
      (cache.fetch read source).2.bound = cache.bound ∧ (cache.fetch read source).2.enabled = true ∧
      (cache.fetch read source).2.stats =
        { hits := cache.stats.hits
          misses := cache.stats.misses + 1
          evictions :=
            cache.stats.evictions + ((renewed cache.sources source).length - cache.bound.toNat)
          current := (cache.fetch read source).2.size } := by
  -- The miss has been counted, and nothing else has happened, when the source is stored.
  have hmissed : Tidy { cache with
      stats := { cache.stats with misses := cache.stats.misses + 1 } } :=
    ⟨h.enabled, h.bound, h.nodup, h.length⟩
  obtain ⟨stored, hstore, hsources, hbound, henabled, hstats⟩ := hmissed.store_ok source x
  simp only [fetch, h.lookup_of_notMem hmem, hread, hstore]
  exact ⟨hsources, hbound, henabled, hstats⟩

/-- **What operations do**, and the cache stays enabled. -/
theorem after_turns (op : Operation α) :
    (cache.after op).enabled = true ∧ Turns cache (cache.after op) op := by
  have hhit : ∀ {source}, source ∈ cache.sources →
      (cache.lookup source).2.sources = kept cache.bound (renewed cache.sources source) :=
        fun hmem =>
    (h.lookup_of_mem hmem).2.1.trans (h.kept_renewed_of_mem hmem).symm
  cases op with
  | lookup source =>
    by_cases hmem : source ∈ cache.sources
    · obtain ⟨-, -, hbound, henabled, -⟩ := h.lookup_of_mem hmem
      exact ⟨henabled, .used (by rw [used?, if_pos (contains_iff.mpr hmem)]) (hhit hmem) hbound⟩
    · rw [after, h.lookup_of_notMem hmem]
      exact ⟨h.enabled, .stayed (by simp [used?, contains_iff, hmem])
        (fun _ hdrops => hdrops) rfl rfl⟩
  | store source x =>
    obtain ⟨stored, hstore, hsources, hbound, henabled, -⟩ := h.store_ok source x
    rw [after, hstore]
    exact ⟨henabled, .used rfl hsources hbound⟩
  | fetch read source =>
    by_cases hmem : source ∈ cache.sources
    · obtain ⟨-, -, hbound, henabled, -⟩ := h.lookup_of_mem hmem
      rw [after, h.fetch_of_mem read hmem]
      exact ⟨henabled, .used (by rw [used?, if_pos (contains_iff.mpr hmem)]) (hhit hmem) hbound⟩
    · cases hread : read source with
      | error e =>
        rw [after, h.fetch_of_error hmem hread]
        exact ⟨h.enabled, .stayed (by simp [used?, contains_iff, hmem, hread])
          (fun _ hdrops => hdrops) rfl rfl⟩
      | ok x =>
        obtain ⟨hsources, hbound, henabled, -⟩ := h.fetch_of_ok hmem hread
        exact ⟨henabled, .used (by simp [used?, contains_iff, hmem, hread]) hsources hbound⟩
  | forget source => exact ⟨enabled_forget.trans h.enabled, .forgot rfl sources_forget bound_forget⟩
  | clear => exact ⟨h.enabled, .cleared rfl rfl rfl⟩
  | resize bound =>
    by_cases hbound : bound < 1
    · rw [after, resize, if_pos hbound]
      exact ⟨h.enabled, .stayed rfl (fun _ hdrops => hdrops) rfl rfl⟩
    · rw [after, resize, if_neg hbound]
      refine ⟨h.enabled, .resized rfl (by omega) ?_ rfl⟩
      show ((cache.entries.drop _).map (·.1)) = kept bound cache.sources
      rw [kept, length_sources, List.map_drop]
      rfl

/-- **Look-ups of what is there are counted**, and nothing else is, as hits. -/
theorem hits_after (op : Operation α) :
    (cache.after op).stats.hits = cache.stats.hits + (cache.hits op).toNat := by
  cases op with
  | lookup source =>
    by_cases hmem : source ∈ cache.sources
    · rw [hits, contains_iff.mpr hmem]
      exact congrArg CacheCounts.hits (h.lookup_of_mem hmem).2.2.2.2
    · rw [after, h.lookup_of_notMem hmem, hits, contains_eq_false_iff.mpr hmem]
      rfl
  | store source x =>
    obtain ⟨stored, hstore, -, -, -, hstats⟩ := h.store_ok source x
    rw [after, hstore]
    exact (congrArg CacheCounts.hits hstats).trans rfl
  | fetch read source =>
    by_cases hmem : source ∈ cache.sources
    · rw [after, h.fetch_of_mem read hmem, hits, contains_iff.mpr hmem]
      exact congrArg CacheCounts.hits (h.lookup_of_mem hmem).2.2.2.2
    · rw [hits, contains_eq_false_iff.mpr hmem]
      cases hread : read source with
      | error e =>
        rw [after, h.fetch_of_error hmem hread]
        rfl
      | ok x => exact (congrArg CacheCounts.hits (h.fetch_of_ok hmem hread).2.2.2).trans rfl
  | forget source =>
    rcases cache.forget_cases source with ⟨-, hforget⟩ | ⟨-, hforget⟩ <;>
        rw [after, hforget] <;> rfl
  | clear => rfl
  | resize bound =>
    rw [after, resize]
    split <;> rfl

/-- An operation that uses a source does nothing else. -/
theorem after_of_used (hused : cache.used? op = some source) :
    (cache.after op).sources = kept cache.bound (renewed cache.sources source) ∧
      (cache.after op).bound = cache.bound := by
  cases (h.after_turns op).2 with
  | used husing hafter hbound =>
    obtain rfl := Option.some.inj (hused.symm.trans husing)
    exact ⟨hafter, hbound⟩
  | forgot hop _ _ => simp [hop, used?] at hused
  | cleared hop _ _ => simp [hop, used?] at hused
  | resized hop _ _ _ => simp [hop, used?] at hused
  | stayed hnone _ _ _ => simp [hnone] at hused

/-- An operation that neither uses nor drops a source, and does not change the
bound, changes nothing. -/
theorem after_of_unused (hunused : cache.used? op = none) (hdrops : ∀ source, ¬ op.Drops source)
    (hbound : op.KeepsBound) :
    (cache.after op).sources = cache.sources ∧ (cache.after op).bound = cache.bound := by
  cases (h.after_turns op).2 with
  | used husing _ _ => simp [hunused] at husing
  | @forgot source hop _ _ => exact absurd (hop ▸ rfl) (hdrops source)
  | cleared hop _ _ => exact absurd (hop ▸ trivial) (hdrops "")
  | resized hop _ _ _ => exact (hop ▸ hbound : (Operation.resize _ : Operation α).KeepsBound).elim
  | stayed _ _ hafter hsame => exact ⟨hafter, hsame⟩

/-- **A tidy cache stays tidy**. -/
theorem after (op : Operation α) : (cache.after op).Tidy := by
  obtain ⟨henabled, hturns⟩ := h.after_turns op
  have hmin : ∀ {bound : Int} {order : List String}, 0 ≤ bound →
      ((kept bound order).length : Int) ≤ bound := by
    intro bound order hbound
    rw [length_kept]
    omega
  cases hturns with
  | used _ hsources hbound =>
    refine ⟨henabled, hbound ▸ h.bound, ?_, ?_⟩
    · rw [hsources]
      exact (nodup_renewed h.nodup).sublist (List.drop_sublist _ _)
    · rw [hsources, hbound]
      exact hmin h.bound
  | @forgot source _ hsources hbound =>
    refine ⟨henabled, hbound ▸ h.bound, hsources ▸ h.nodup.filter _, ?_⟩
    have hle := List.length_filter_le (· != source) cache.sources
    rw [hsources, hbound]
    exact Int.le_trans (by exact_mod_cast hle) h.length
  | cleared _ hsources hbound =>
    refine ⟨henabled, hbound ▸ h.bound, hsources ▸ List.nodup_nil, ?_⟩
    have := h.bound
    rw [hsources, hbound]
    simp only [List.length_nil]
    omega
  | @resized bound _ hpositive hsources hbound =>
    have hmet : 0 ≤ bound := by omega
    refine ⟨henabled, hbound ▸ hmet, ?_, ?_⟩
    · rw [hsources]
      exact h.nodup.sublist (List.drop_sublist _ _)
    · rw [hsources, hbound]
      exact hmin hmet
  | stayed _ _ hsources hbound =>
    exact ⟨henabled, hbound ▸ h.bound, hsources ▸ h.nodup, hsources ▸ hbound ▸ h.length⟩

/-- A cache is tidy after any history. -/
theorem run (history : List (Operation α)) : (cache.run history).Tidy := by
  induction history generalizing cache with
  | nil => exact h
  | cons op rest ih => exact ih (h.after op)

end Tidy

/-- An empty cache whose bound is not negative is tidy. -/
theorem tidy_empty {bound : Int} (h : 0 ≤ bound) : Tidy ({ bound } : Cache α) where
  enabled := rfl
  bound := h
  nodup := List.nodup_nil
  length := h

/-- An empty cache with a positive bound is orderly. -/
theorem orderly_empty {bound : Int} (h : 1 ≤ bound) : Orderly ({ bound } : Cache α) where
  toTidy := tidy_empty (by omega)
  positive := h

namespace Orderly

variable (h : cache.Orderly)

include h

/-- **An orderly cache stays orderly**: a bound that is not positive is refused. -/
theorem after (op : Operation α) : (cache.after op).Orderly := by
  refine ⟨h.toTidy.after op, ?_⟩
  cases (h.after_turns op).2 with
  | used _ _ hbound => exact hbound ▸ h.positive
  | forgot _ _ hbound => exact hbound ▸ h.positive
  | cleared _ _ hbound => exact hbound ▸ h.positive
  | resized _ hpositive _ hbound => exact hbound ▸ hpositive
  | stayed _ _ _ hbound => exact hbound ▸ h.positive

/-- A cache is orderly after any history. -/
theorem run (history : List (Operation α)) : (cache.run history).Orderly := by
  induction history generalizing cache with
  | nil => exact h
  | cons op rest ih => exact ih (h.after op)

end Orderly

end Switchyard.Cache
