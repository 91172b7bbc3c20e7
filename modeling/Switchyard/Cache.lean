import Switchyard.Fault

/-!
# A bounded cache that forgets the least recently used

The entries are kept in the order of their last use, the least recent first. A store or a
successful look-up is a use. When there are more entries than the bound allows, entries are
evicted from the front.

A bound below zero can never be met: the cache then evicts everything it has and breaks when
nothing is left to evict.
-/

namespace Switchyard

/-- Counts of what a cache has done. -/
structure CacheCounts where
  hits : Nat := 0
  misses : Nat := 0
  evictions : Nat := 0
  /-- How many entries there were after the last change of the entries. -/
  current : Nat := 0
  deriving DecidableEq, Repr, Inhabited

/-- A cache of things read from source, the least recently used first. -/
structure Cache (α : Type) where
  bound : Int := 4096
  enabled : Bool := true
  entries : List (String × α) := []
  stats : CacheCounts := {}
  deriving Inhabited

namespace Cache

variable {α : Type}

def size (cache : Cache α) : Nat := cache.entries.length

def contains (cache : Cache α) (source : String) : Bool := cache.entries.any (·.1 == source)

/-- The counts as they are reported: with the entries that there are now. -/
def counts (cache : Cache α) : CacheCounts := { cache.stats with current := cache.size }

/-- The cache after its entries have been counted. -/
def recounted (cache : Cache α) : Cache α := { cache with stats := cache.counts }

/-- The entry of a source, without using it. -/
def find? (cache : Cache α) (source : String) : Option α :=
  (cache.entries.find? (·.1 == source)).map (·.2)

/-- The entries other than that of a source. -/
def others (cache : Cache α) (source : String) : List (String × α) :=
  cache.entries.filter (·.1 != source)

/-- Looks a source up. A hit makes it the most recently used. -/
def lookup (cache : Cache α) (source : String) : Option α × Cache α :=
  if !cache.enabled then (none, cache)
  else match cache.find? source with
    | some x =>
      (some x, { cache with
        entries := cache.others source ++ [(source, x)]
        stats := { cache.stats with hits := cache.stats.hits + 1 } })
    | none => (none, { cache with stats := { cache.stats with misses := cache.stats.misses + 1 } })

/-- Evicts the least recently used entries until at most `bound` are left. -/
def shrink (cache : Cache α) (bound : Nat) : Cache α :=
  let surplus := cache.size - bound
  { cache with
    entries := cache.entries.drop surplus
    stats := { cache.stats with evictions := cache.stats.evictions + surplus } }

/-- Puts an entry at the place of the most recently used and evicts what is too much. -/
def store (cache : Cache α) (source : String) (x : α) : Except Raised Unit × Cache α :=
  if !cache.enabled then (.ok (), cache)
  else
    -- The entry that is there already is not counted twice.
    let grown := { cache with entries := cache.others source ++ [(source, x)] }
    let kept := grown.shrink cache.bound.toNat
    -- A negative bound empties the cache and then evicts from nothing; the entries
    -- are not counted any more.
    if cache.bound < 0 then (.error (.broken "KeyError" "'dictionary is empty'"), kept)
    else (.ok (), kept.recounted)

/-- The entry of a source, which is read and stored when it is not cached. -/
def fetch (cache : Cache α) (read : String → Except Raised α) (source : String) :
    Except Raised α × Cache α :=
  match cache.lookup source with
  | (some x, cache) => (.ok x, cache)
  | (none, cache) =>
    match read source with
    | .error e => (.error e, cache)
    | .ok x =>
      match cache.store source x with
      | (.ok (), cache) => (.ok x, cache)
      | (.error e, cache) => (.error e, cache)

/-- Drops one entry, and tells whether there was one. -/
def forget (cache : Cache α) (source : String) : Bool × Cache α :=
  if cache.contains source then (true, recounted { cache with entries := cache.others source })
  else (false, cache)

/-- Changes the bound, which has to be positive, and evicts what is too much. -/
def resize (cache : Cache α) (bound : Int) : Except Raised Unit × Cache α :=
  if bound < 1 then
    (.error (.refused "ValueError" ("max_entries must be positive, got " ++ toString bound)), cache)
  else (.ok (), ({ cache with bound := bound }.shrink bound.toNat).recounted)

/-- Drops all entries; what has been done stays counted. -/
def clear (cache : Cache α) : Cache α := recounted { cache with entries := [] }

/-- The share of look-ups that were hits; zero when there were none. -/
def hitShare (stats : CacheCounts) : Float :=
  let total := stats.hits + stats.misses
  if total = 0 then 0 else Float.ofNat stats.hits / Float.ofNat total

end Cache

end Switchyard
