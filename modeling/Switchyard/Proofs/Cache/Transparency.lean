import Switchyard.Proofs.Cache.History
import Switchyard.Proofs.Cache.Sound
import Switchyard.Expression.Parser

/-!
# Expressions read through a cache

Expressions are read through a cache that others use as well: between two readings sources are read,
looked up and dropped, the bound is changed, everything is dropped. None of that shows. Whether the
cache is enabled, and however little room it has, what is read through it is what is read without
it, and source that is malformed leaves no trace among the entries.

Main statements: histories that only read come to reachable caches (`reachable_run`), source that
cannot be read leaves the entries as they are (`entries_fetch_of_error`), and both together for
expressions (`parse_through_cache`).
-/

namespace Switchyard.Cache

variable {α : Type} {read : String → Except Raised α} {cache : Cache α} {source : String}

/-! ## §1 Histories that only read -/

/-- An operation that puts nothing into a cache but what `read` gives. -/
def Operation.ReadsBy (read : String → Except Raised α) : Operation α → Prop
  | .fetch read' _ => read' = read
  | .store _ _ => False
  | .lookup _ | .forget _ | .clear | .resize _ => True

/-- An operation that only reads leads from one reachable cache to the next. -/
theorem Reachable.after (h : cache.Reachable read) {op : Operation α} (hop : op.ReadsBy read) :
    (cache.after op).Reachable read := by
  cases op with
  | lookup source => exact h.lookup source
  | store _ _ => exact hop.elim
  | fetch read' source =>
    obtain rfl : read' = read := hop
    exact h.fetch source
  | forget source => exact h.forget source
  | clear => exact h.clear
  | resize bound => exact h.resize bound

/-- **Histories that only read** come to reachable caches. -/
theorem reachable_run {bound : Int} (hbound : 0 ≤ bound) (enabled : Bool)
    {history : List (Operation α)} (hhistory : ∀ op ∈ history, op.ReadsBy read) :
    (({ bound, enabled } : Cache α).run history).Reachable read := by
  -- By induction on the history, for any reachable cache in which it begins.
  suffices ∀ cache : Cache α, cache.Reachable read → (cache.run history).Reachable read from
    this _ (.empty enabled hbound)
  induction history with
  | nil => exact fun _ h => h
  | cons op rest ih =>
    obtain ⟨hop, hrest⟩ := List.forall_mem_cons.mp hhistory
    exact fun cache h => ih hrest (cache.after op) (h.after hop)

/-! ## §2 Source that cannot be read -/

/-- A source that cannot be read is not cached. -/
theorem Sound.find?_eq_none {e : Raised} (h : cache.Sound read) (hread : read source = .error e) :
    cache.find? source = none := by
  rw [Option.eq_none_iff_forall_ne_some]
  intro x hfind
  cases hread.symm.trans (h.find? hfind)

/-- Looking for a source that is not cached leaves the entries as they are. -/
theorem lookup_of_find?_eq_none (h : cache.find? source = none) :
    (cache.lookup source).1 = none ∧ (cache.lookup source).2.entries = cache.entries := by
  unfold lookup
  split
  · exact ⟨rfl, rfl⟩
  · rw [h]
    exact ⟨rfl, rfl⟩

/-- **Source that cannot be read** leaves the entries, and the order in which they are
evicted, as they are. -/
theorem entries_fetch_of_error {e : Raised} (h : cache.Sound read)
    (hread : read source = .error e) : (cache.fetch read source).2.entries = cache.entries := by
  obtain ⟨hnone, hentries⟩ := lookup_of_find?_eq_none (h.find?_eq_none hread)
  rcases hlookup : cache.lookup source with ⟨found, looked⟩
  rw [hlookup] at hnone hentries
  obtain rfl : found = none := hnone
  simp only [fetch, hlookup, hread]
  exact hentries

/-! ## §3 Expressions -/

/-- **The cache does not show.** After every history of reading, looking up, dropping and resizing,
with whatever room and whether the cache is enabled or not, reading an expression through the cache
gives what reading it without the cache gives: the same expression, or the same error. An error
leaves the entries and their order as they are. -/
theorem parse_through_cache {bound : Int} (hbound : 0 ≤ bound) (enabled : Bool)
    (history : List (Operation Expression)) (hhistory : ∀ op ∈ history, op.ReadsBy Expression.parse)
    (source : String) :
    ((({ bound, enabled } : Cache Expression).run history).fetch Expression.parse source).1 =
      Expression.parse source ∧
    ∀ e, Expression.parse source = .error e →
      ((({ bound, enabled } : Cache Expression).run history).fetch Expression.parse
        source).2.entries =
        (({ bound, enabled } : Cache Expression).run history).entries := by
  have hsound := (reachable_run hbound enabled hhistory).sound
  exact ⟨(fetch_of_sound hsound source).1, fun e hread => entries_fetch_of_error hsound hread⟩

/-- A cache with room for one: "a" has been read and evicted, "b" is there. -/
def oneEntry : List (Operation Expression) :=
  [.fetch Expression.parse "a", .fetch Expression.parse "b", .lookup "a"]

theorem parse_letters : Expression.parse "a" = .ok ⟨"a", .path [.name "a"]⟩ ∧
    Expression.parse "b" = .ok ⟨"b", .path [.name "b"]⟩ :=
  ⟨by cbv, by cbv⟩

theorem entries_oneEntry :
    (({ bound := 1 } : Cache Expression).run oneEntry).entries =
      [("b", ⟨"b", .path [.name "b"]⟩)] := by
  simp [oneEntry, after, fetch, lookup, find?, store, others, shrink, size, recounted, counts,
    parse_letters]

theorem tokens_openSum : Expression.tokens "a +" = .ok [⟨.name "a", 0, 1⟩, ⟨.plus, 2, 3⟩] := by cbv

/-- A sum that lacks its second term is refused, and leaves the one entry that there is room for. -/
theorem parse_through_cache_of_one :
    (0 : Int) ≤ 1 ∧ (∀ op ∈ oneEntry, op.ReadsBy Expression.parse) ∧
    ∃ e, Expression.parse "a +" = .error e ∧
      ((({ bound := 1 } : Cache Expression).run oneEntry).fetch Expression.parse "a +").1 =
        .error e ∧
      ((({ bound := 1 } : Cache Expression).run oneEntry).fetch Expression.parse "a +").2.entries =
        [("b", ⟨"b", .path [.name "b"]⟩)] := by
  have hbound : (0 : Int) ≤ 1 := by decide
  have hhistory : ∀ op ∈ oneEntry, op.ReadsBy Expression.parse := by
    simp [oneEntry, Operation.ReadsBy]
  have hrefused : ∃ e, Expression.parse "a +" = .error e := by
    have hmalformed : Expression.read "a +" = .error (.malformed .unexpectedEnd 3) := by
      rw [Expression.read, tokens_openSum]
      rfl
    unfold Expression.parse
    rw [hmalformed]
    exact ⟨_, rfl⟩
  obtain ⟨e, he⟩ := hrefused
  obtain ⟨hread, hkept⟩ := parse_through_cache hbound true oneEntry hhistory "a +"
  exact ⟨hbound, hhistory, e, he, hread.trans he, (hkept e he).trans entries_oneEntry⟩

end Switchyard.Cache
