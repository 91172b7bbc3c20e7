import Switchyard.Proofs.Cache.History

/-!
# The accounts of a cache

A cache counts its hits, its misses and what it evicts, and how many entries it has. Each operation
moves these counts by what it does itself: it looks a source up or does not, it brings an entry in
or does not, and entries that leave are evicted, dropped by name, or dropped with all others. So the
counts balance after every history, also without room for any entry.

Main statements: every operation is booked (`Tidy.booked_after`), the books of a history are those
of its operations (`Tidy.books_run`), and so all counts balance (`accounts_balance`).
-/

namespace Switchyard.Cache

variable {α : Type} {cache : Cache α} {source : String}

/-! ## §1 What is counted -/

/-- An operation that looks a source up. -/
def Operation.looksUp : Operation α → Bool
  | .lookup _ | .fetch _ _ => true
  | .store _ _ | .forget _ | .clear | .resize _ => false

/-- The entries that an operation brings in: one, if it stores a source that is not cached. -/
def arrivals (cache : Cache α) : Operation α → Nat
  | .store source _ => (!cache.contains source).toNat
  -- What is read is stored unless it is cached or cannot be read.
  | .fetch read source => (!cache.contains source && (read source).toBool).toNat
  | .lookup _ | .forget _ | .clear | .resize _ => 0

/-- The entries that an operation drops by the name of their source. -/
def forgotten (cache : Cache α) : Operation α → Nat
  | .forget source => (cache.forget source).1.toNat
  | .lookup _ | .store _ _ | .fetch _ _ | .clear | .resize _ => 0

/-- The entries that an operation drops together with all others. -/
def cleared (cache : Cache α) : Operation α → Nat
  | .clear => cache.size
  | .lookup _ | .store _ _ | .fetch _ _ | .forget _ | .resize _ => 0

/-- The look-ups of an operation that find their source. -/
def found (cache : Cache α) (op : Operation α) : Nat := (cache.hits op).toNat

/-- The sum of what the operations of a history come to, each in the cache that it finds. -/
def total (count : Cache α → Operation α → Nat) (cache : Cache α) : List (Operation α) → Nat
  | [] => 0
  | op :: rest => count cache op + total count (cache.after op) rest

/-! ## §2 One operation -/

/-- Renewing a source takes one place more if it was not there. -/
theorem length_renewed (hnodup : cache.sources.Nodup) (source : String) :
    (renewed cache.sources source).length = cache.size + (!cache.contains source).toNat := by
  rw [← length_sources]
  by_cases hmem : source ∈ cache.sources
  · rw [length_renewed_of_mem hnodup hmem, contains_iff.mpr hmem]
    rfl
  · rw [length_renewed_of_notMem hmem, contains_eq_false_iff.mpr hmem]
    rfl

/-- What is cut off an order and what is kept of it make up the order. -/
theorem length_kept_add (bound : Int) (order : List String) :
    (kept bound order).length + (order.length - bound.toNat) = order.length := by
  rw [length_kept]
  omega

/-- **The books of an operation**: its look-up is counted, the entries that come in are there or
have left, and the entries are counted again if they were counted before. -/
structure Booked (cache cache' : Cache α) (op : Operation α) : Prop where
  lookUps : cache'.stats.hits + cache'.stats.misses = cache.stats.hits + cache.stats.misses +
    op.looksUp.toNat
  entries : cache'.size + cache'.stats.evictions + cache.forgotten op + cache.cleared op =
    cache.size + cache.stats.evictions + cache.arrivals op
  current : cache.stats.current = cache.size → cache'.stats.current = cache'.size

/-- A new bound evicts what is too much for it; one that is not positive is refused. -/
theorem booked_resize (bound : Int) : Booked cache (cache.resize bound).2 (.resize bound) := by
  unfold resize
  split
  · exact ⟨rfl, rfl, id⟩
  · refine ⟨rfl, ?_, fun _ => rfl⟩
    show (cache.entries.drop (cache.size - bound.toNat)).length +
      (cache.stats.evictions + (cache.size - bound.toNat)) =
      cache.size + cache.stats.evictions
    rw [List.length_drop, size]
    omega

/-- A new bound that is refused changes nothing. -/
theorem resize_of_error {bound : Int} {e : Raised} (hrefused : (cache.resize bound).1 = .error e) :
    (cache.resize bound).2 = cache := by
  unfold resize at hrefused ⊢
  split at hrefused
  · rename_i hpositive
    rw [if_pos hpositive]
  · cases hrefused

namespace Tidy

variable (h : cache.Tidy)

include h

theorem size_le : (cache.size : Int) ≤ cache.bound := by
  rw [← length_sources]
  exact h.length

/-- A look-up is a hit or a miss, and the same entries are there afterwards. -/
theorem booked_lookup (source : String) :
    Booked cache (cache.lookup source).2 (.lookup source) := by
  by_cases hmem : source ∈ cache.sources
  · obtain ⟨-, hsources, -, -, hstats⟩ := h.lookup_of_mem hmem
    have hsize : (cache.lookup source).2.size = cache.size := by
      rw [← length_sources, hsources, length_renewed_of_mem h.nodup hmem, length_sources]
    refine ⟨?_, ?_, ?_⟩
    · rw [hstats]
      exact Nat.add_right_comm _ _ _
    · rw [hstats, hsize]
      rfl
    · intro hcurrent
      rw [hstats, hsize]
      exact hcurrent
  · rw [h.lookup_of_notMem hmem]
    exact ⟨rfl, rfl, id⟩

/-- What is stored comes in unless it was there, and what is too much is evicted. -/
theorem booked_store (source : String) (x : α) :
    Booked cache (cache.store source x).2 (.store source x) := by
  obtain ⟨stored, hstore, hsources, -, -, hstats⟩ := h.store_ok source x
  have hsize : stored.size + ((renewed cache.sources source).length - cache.bound.toNat) =
      cache.size + (!cache.contains source).toNat := by
    rw [← length_sources, hsources, length_kept_add, length_renewed h.nodup]
  rw [hstore]
  refine ⟨?_, ?_, ?_⟩
  · rw [hstats]
    rfl
  · show stored.size + stored.stats.evictions = cache.size + cache.stats.evictions +
        (!cache.contains source).toNat
    rw [hstats]
    show stored.size + (cache.stats.evictions + _) = _
    omega
  · intro _
    rw [hstats]

/-- Reading a source is a look-up, and a store if that misses and the source can be read. -/
theorem booked_fetch (read : String → Except Raised α) (source : String) :
    Booked cache (cache.fetch read source).2 (.fetch read source) := by
  by_cases hmem : source ∈ cache.sources
  · obtain ⟨hlookUps, hentries, hcurrent⟩ := h.booked_lookup source
    rw [h.fetch_of_mem read hmem]
    refine ⟨hlookUps, ?_, hcurrent⟩
    rw [arrivals, contains_iff.mpr hmem]
    exact hentries
  · cases hread : read source with
    | error e =>
      rw [h.fetch_of_error hmem hread]
      refine ⟨rfl, ?_, id⟩
      rw [arrivals, contains_eq_false_iff.mpr hmem, hread]
      rfl
    | ok x =>
      obtain ⟨hsources, -, -, hstats⟩ := h.fetch_of_ok hmem hread
      have hsize : (cache.fetch read source).2.size +
          ((renewed cache.sources source).length - cache.bound.toNat) =
          cache.size + 1 := by
        rw [← length_sources, hsources, length_kept_add, length_renewed_of_notMem hmem,
          length_sources]
      refine ⟨?_, ?_, ?_⟩
      · rw [hstats]
        rfl
      · rw [arrivals, contains_eq_false_iff.mpr hmem, hread]
        show _ + (cache.fetch read source).2.stats.evictions =
            cache.size + cache.stats.evictions + 1
        rw [hstats]
        show _ + (cache.stats.evictions + _) = _
        omega
      · intro _
        rw [hstats]

/-- Dropping a source that is there leaves one entry less. -/
theorem booked_forget (source : String) :
    Booked cache (cache.forget source).2 (.forget source) := by
  have hsources : (cache.forget source).2.sources = cache.sources.filter (· != source) :=
    sources_forget
  rcases cache.forget_cases source with ⟨hmem, hforget⟩ | ⟨-, hforget⟩
  · have hsize : (cache.forget source).2.size + 1 = cache.size := by
      have hpos : 0 < cache.sources.length := List.length_pos_of_mem hmem
      rw [← length_sources, hsources, ← h.nodup.erase_eq_filter, List.length_erase_of_mem hmem,
        ← length_sources]
      omega
    have hdropped : cache.forgotten (.forget source) = 1 := by rw [forgotten, hforget]; rfl
    refine ⟨?_, ?_, ?_⟩
    · rw [hforget]
      rfl
    · have hevictions : (cache.forget source).2.stats.evictions = cache.stats.evictions := by
        rw [hforget]; rfl
      rw [hdropped, hevictions, cleared, arrivals]
      omega
    · intro _
      rw [hforget]
      rfl
  · have hdropped : cache.forgotten (.forget source) = 0 := by rw [forgotten, hforget]; rfl
    rw [hforget]
    exact ⟨rfl, by rw [hdropped]; rfl, id⟩

/-- **Every operation is booked.** -/
theorem booked_after (op : Operation α) : Booked cache (cache.after op) op := by
  cases op with
  | lookup source => exact h.booked_lookup source
  | store source x => exact h.booked_store source x
  | fetch read source => exact h.booked_fetch read source
  | forget source => exact h.booked_forget source
  | resize bound => exact booked_resize bound
  | clear =>
    refine ⟨rfl, ?_, fun _ => rfl⟩
    show 0 + cache.stats.evictions + 0 + cache.size = cache.size + cache.stats.evictions + 0
    omega

/-! ## §3 Histories -/

/-- **The books of a history** are those of its operations, added up. -/
theorem books_run (history : List (Operation α)) :
    (cache.run history).stats.hits = cache.stats.hits + total found cache history ∧
    (cache.run history).stats.hits + (cache.run history).stats.misses =
      cache.stats.hits + cache.stats.misses + history.countP (·.looksUp) ∧
    (cache.run history).size + (cache.run history).stats.evictions + total forgotten cache history +
        total cleared cache history =
      cache.size + cache.stats.evictions + total arrivals cache history ∧
    (cache.stats.current = cache.size →
      (cache.run history).stats.current = (cache.run history).size) := by
  induction history generalizing cache with
  | nil => exact ⟨rfl, rfl, rfl, id⟩
  | cons op rest ih =>
    obtain ⟨hlookUps, hentries, hcurrent⟩ := h.booked_after op
    obtain ⟨hhits, hmore, hleft, hcounted⟩ := ih (h.after op)
    refine ⟨?_, ?_, ?_, fun hstart => hcounted (hcurrent hstart)⟩
    · rw [run_cons, hhits, h.hits_after op, Nat.add_assoc]
      rfl
    · rw [run_cons, hmore, hlookUps, List.countP_cons, Nat.add_assoc, Nat.add_comm op.looksUp.toNat]
      cases op.looksUp <;> rfl
    · rw [run_cons, total, total, total]
      omega

end Tidy

/-- **The accounts balance.** After every history of an enabled cache whose bound is not negative

* there are no more entries than the bound allows, and the count of entries says how many there are,
also as it is reported;
* every look-up has been counted once, as a hit if its source was there, and else as a miss;
* the entries that came in, by stores of sources that were not cached, are the ones that
are there, those that were evicted, those that were dropped by name, and those that were
dropped with all others;
* and a new bound that is refused changes nothing. -/
theorem accounts_balance {bound : Int} (hbound : 0 ≤ bound) (history : List (Operation α)) :
    ((({ bound } : Cache α).run history).size : Int) ≤ (({ bound } : Cache α).run history).bound ∧
    (({ bound } : Cache α).run history).stats.current = (({ bound } : Cache α).run history).size ∧
    (({ bound } : Cache α).run history).counts = (({ bound } : Cache α).run history).stats ∧
    (({ bound } : Cache α).run history).stats.hits = total found ({ bound } : Cache α) history ∧
    (({ bound } : Cache α).run history).stats.hits +
      (({ bound } : Cache α).run history).stats.misses =
      history.countP (·.looksUp) ∧
    total arrivals ({ bound } : Cache α) history =
      (({ bound } : Cache α).run history).size +
        (({ bound } : Cache α).run history).stats.evictions +
        total forgotten ({ bound } : Cache α) history +
          total cleared ({ bound } : Cache α) history ∧
    ∀ newBound e, ((({ bound } : Cache α).run history).resize newBound).1 = .error e →
      ((({ bound } : Cache α).run history).resize newBound).2 =
        ({ bound } : Cache α).run history := by
  have hempty : Tidy ({ bound } : Cache α) := tidy_empty hbound
  obtain ⟨hhits, hlookUps, hentries, hcurrent⟩ := hempty.books_run history
  have hcounted := hcurrent rfl
  refine ⟨(hempty.run history).size_le, hcounted, ?_, ?_, ?_, ?_, fun _ _ => resize_of_error⟩
  · rw [counts, ← hcounted]
  · exact hhits.trans (Nat.zero_add _)
  · exact hlookUps.trans (Nat.zero_add _)
  · exact (hentries.trans (Nat.zero_add _)).symm

/-- A history in which entries leave a cache with room for one in every way there is. -/
def busyHistory : List (Operation Nat) :=
  [.store "a" 1, .store "b" 2, .lookup "a", .fetch (fun _ => .error .abandoned) "c",
    .fetch (fun _ => .ok 4) "d", .lookup "d", .forget "d", .forget "d", .store "e" 5, .clear,
      .resize 0, .store "f" 6]

/-- Of five entries two were evicted, one was dropped by name, one with all others, and one is
there; one of four look-ups was a hit. -/
theorem accounts_balance_busy :
    (0 : Int) ≤ 1 ∧
    ((({ bound := 1 } : Cache Nat).run busyHistory).stats.hits = 1 ∧
      (({ bound := 1 } : Cache Nat).run busyHistory).stats.misses = 3 ∧
      (({ bound := 1 } : Cache Nat).run busyHistory).stats.evictions = 2) ∧
    1 + 3 = busyHistory.countP (·.looksUp) ∧
    total arrivals ({ bound := 1 } : Cache Nat) busyHistory = 1 + 2 + 1 + 1 := by
  have hbound : (0 : Int) ≤ 1 := by decide
  have hstats : (({ bound := 1 } : Cache Nat).run busyHistory).stats =
    { hits := 1, misses := 3, evictions := 2, current := 1 } := by decide
  obtain ⟨-, hcurrent, -, -, hlookUps, hentries, -⟩ := accounts_balance hbound busyHistory
  rw [hstats] at hcurrent hlookUps
  rw [hstats, ← hcurrent] at hentries
  exact ⟨hbound, ⟨by rw [hstats], by rw [hstats], by rw [hstats]⟩, hlookUps, hentries⟩

end Switchyard.Cache
