import Switchyard.Cache
import Mathlib.Data.List.Basic

/-!
# Caches that do not show

A cache that was only ever filled by reading holds nothing but what reading gives. To
fetch a source from it is then the same as to read the source, whatever has been fetched,
dropped and evicted before.

Main statements: reachable caches are sound (`Reachable.sound`), and fetching from a sound cache is
reading (`fetch_of_sound`).
-/

namespace Switchyard.Cache

variable {α : Type} {read : String → Except Raised α} {cache : Cache α} {source : String}

/-- **A sound cache** of what `read` gives: every entry is what its source is read as, and
the bound can be met. -/
structure Sound (read : String → Except Raised α) (cache : Cache α) : Prop where
  bound : 0 ≤ cache.bound
  entries : ∀ entry ∈ cache.entries, read entry.1 = .ok entry.2

/-- **The states that a cache can come to** from an empty one whose bound can be met. -/
inductive Reachable (read : String → Except Raised α) : Cache α → Prop
  | empty {bound : Int} (enabled : Bool) : 0 ≤ bound → Reachable read { bound, enabled }
  | fetch {cache : Cache α} (source : String) :
      Reachable read cache → Reachable read (cache.fetch read source).2
  | lookup {cache : Cache α} (source : String) :
      Reachable read cache → Reachable read (cache.lookup source).2
  | forget {cache : Cache α} (source : String) :
      Reachable read cache → Reachable read (cache.forget source).2
  | resize {cache : Cache α} (bound : Int) :
      Reachable read cache → Reachable read (cache.resize bound).2
  | clear {cache : Cache α} : Reachable read cache → Reachable read cache.clear

/-! ## §1 Entries -/

theorem mem_others {entry : String × α} (h : entry ∈ cache.others source) : entry ∈ cache.entries :=
  (List.mem_filter.mp h).1

theorem Sound.find? {x : α} (h : cache.Sound read) (hfind : cache.find? source = some x) :
    read source = .ok x := by
  obtain ⟨entry, hentry, rfl⟩ := Option.map_eq_some_iff.mp hfind
  have hsource : entry.1 = source := by simpa using List.find?_some hentry
  rw [← hsource]
  exact h.entries entry (List.mem_of_find?_eq_some hentry)

/-- Evicting leaves a cache sound. -/
theorem Sound.shrink (h : cache.Sound read) (bound : Nat) : (cache.shrink bound).Sound read where
  bound := h.bound
  entries entry hentry := h.entries entry (List.mem_of_mem_drop hentry)

theorem Sound.recounted (h : cache.Sound read) : cache.recounted.Sound read := ⟨h.bound, h.entries⟩

/-- Keeping only some of the entries leaves a cache sound. -/
theorem Sound.of_subset {entries : List (String × α)} (h : cache.Sound read)
    (hsubset : entries ⊆ cache.entries) : Sound read { cache with entries } :=
  ⟨h.bound, fun entry hentry => h.entries entry (hsubset hentry)⟩

/-- Putting what a source is read as behind the other entries leaves a cache sound. -/
theorem Sound.renew {x : α} (h : cache.Sound read) (hread : read source = .ok x)
    (stats : CacheCounts) :
    Sound read { cache with entries := cache.others source ++ [(source, x)], stats } where
  bound := h.bound
  entries entry hentry := by
    -- An entry is one of the others or the new one.
    rcases List.mem_append.mp hentry with hold | hnew
    · exact h.entries entry (mem_others hold)
    · obtain rfl := List.mem_singleton.mp hnew
      exact hread

/-! ## §2 Operations -/

/-- What is looked up is what the source is read as, and the cache stays sound. -/
theorem lookup_of_sound (h : cache.Sound read) (source : String) :
    (∀ x, (cache.lookup source).1 = some x → read source = .ok x) ∧
      (cache.lookup source).2.Sound read := by
  unfold lookup
  split
  · exact ⟨fun x hx => (by cases hx), h⟩
  · split
    · rename_i x hfind
      -- A hit is put at the end again, with the value that it had.
      refine ⟨fun y hy => ?_, h.renew (h.find? hfind) _⟩
      obtain rfl := Option.some.inj hy
      exact h.find? hfind
    · exact ⟨fun x hx => (by cases hx), ⟨h.bound, h.entries⟩⟩

/-- What a source is read as can be stored, and the cache stays sound. -/
theorem store_of_sound {x : α} (h : cache.Sound read) (hread : read source = .ok x) :
    (cache.store source x).1 = .ok () ∧ (cache.store source x).2.Sound read := by
  -- Storing only fails with a negative bound.
  have hbound : ¬ cache.bound < 0 := by
    have := h.bound
    omega
  unfold store
  split
  · exact ⟨rfl, h⟩
  · exact ⟨rfl, ((h.renew hread cache.stats).shrink _).recounted⟩

/-- **Fetching is reading**: a sound cache does not show. -/
theorem fetch_of_sound (h : cache.Sound read) (source : String) :
    (cache.fetch read source).1 = read source ∧ (cache.fetch read source).2.Sound read := by
  obtain ⟨hfound, hlookup⟩ := lookup_of_sound h source
  unfold fetch
  split
  · rename_i x cache' hcase
    -- A hit was read before, and reading always gives the same.
    rw [hcase] at hfound hlookup
    exact ⟨(hfound x rfl).symm, hlookup⟩
  · rename_i cache' hcase
    rw [hcase] at hlookup
    -- A miss is read now and stored if it can be read.
    cases hread : read source with
    | error e => exact ⟨rfl, hlookup⟩
    | ok x =>
      obtain ⟨hstored, hsound⟩ := store_of_sound hlookup hread
      simp only
      split
      · rename_i cache'' hstore
        rw [hstore] at hsound
        exact ⟨rfl, hsound⟩
      · rename_i e cache'' hstore
        rw [hstore] at hstored
        cases hstored

/-- Changing the bound leaves a cache sound; a bound that is not positive is refused,
whatever the cache is. -/
theorem resize_of_sound (h : cache.Sound read) (bound : Int) :
    (cache.resize bound).2.Sound read := by
  unfold resize
  split
  · exact h
  · have hnew : Sound read { cache with bound := bound } := ⟨by simp only; omega, h.entries⟩
    exact (hnew.shrink _).recounted

/-- Dropping a source leaves a cache sound. -/
theorem forget_of_sound (h : cache.Sound read) (source : String) :
    (cache.forget source).2.Sound read := by
  unfold forget
  split
  · exact (h.of_subset fun _ => mem_others).recounted
  · exact h

/-- Dropping everything leaves a cache sound. -/
theorem clear_of_sound (h : cache.Sound read) : cache.clear.Sound read :=
  (h.of_subset (List.nil_subset _)).recounted

/-- **Reachable caches are sound**. -/
theorem Reachable.sound (h : cache.Reachable read) : cache.Sound read := by
  -- By induction on what the cache went through: every operation keeps a sound cache sound.
  induction h with
  | empty enabled hbound => exact ⟨hbound, by simp⟩
  | fetch source _ ih => exact (fetch_of_sound ih source).2
  | lookup source _ ih => exact (lookup_of_sound ih source).2
  | forget source _ ih => exact forget_of_sound ih source
  | resize bound _ ih => exact resize_of_sound ih bound
  | clear _ ih => exact clear_of_sound ih

end Switchyard.Cache
