import Switchyard.Proofs.Cache.History
import Mathlib.Data.List.Perm.Subperm

/-!
# The cache evicts the least recently used

After any history the cached sources stand in the order of their last use. A source that was used
and was not dropped since is gone exactly if there was a moment at which other sources, each of them
used after it, filled the cache.

Main statements: one operation keeps the order (`sources_after_sublist`), a source that stays behind
the ones used after it is there or displaced (`Before.step`), and both together for whole histories
(`least_recently_used`).
-/

namespace Switchyard.Cache

variable {α : Type} {cache : Cache α} {source other : String} {op : Operation α}
  {used : List String}

/-! ## §1 The order of last use

`List.dedup` keeps of each source its last occurrence, so that the list of all uses comes down to
the order of last use. -/

theorem dedup_append_singleton (used : List String) (source : String) :
    (used ++ [source]).dedup = renewed used.dedup source := by
  induction used with
  | nil => rfl
  | cons first rest ih =>
    by_cases hsource : first = source
    · subst hsource
      rw [List.cons_append, List.dedup_cons_of_mem (by simp), ih]
      by_cases hmem : first ∈ rest
      · rw [List.dedup_cons_of_mem hmem]
      · simp [renewed, List.dedup_cons_of_notMem hmem]
    · by_cases hmem : first ∈ rest
      · rw [List.cons_append, List.dedup_cons_of_mem (by simp [hmem]), ih,
          List.dedup_cons_of_mem hmem]
      · rw [List.cons_append, List.dedup_cons_of_notMem (by simp [hmem, hsource]), ih,
          List.dedup_cons_of_notMem hmem]
        simp [renewed, hsource]

/-- An operation keeps the cached sources in the order of their last use. -/
theorem Orderly.sources_after_sublist (h : cache.Orderly)
    (hsources : cache.sources.Sublist used.dedup) (op : Operation α) :
    (cache.after op).sources.Sublist (used ++ (cache.used? op).toList).dedup := by
  -- What does not use a source leaves the uses as they are, so that dropping some
  -- sources is all it can do.
  have hunused : cache.used? op = none → (used ++ (cache.used? op).toList).dedup = used.dedup := by
    intro hnone
    rw [hnone, Option.toList_none, List.append_nil]
  cases (h.after_turns op).2 with
  | @used source husing hafter _ =>
    rw [husing, Option.toList_some, dedup_append_singleton, hafter]
    exact (List.drop_sublist _ _).trans (renewed_sublist hsources)
  | forgot hop hafter _ =>
    subst hop
    rw [hunused rfl, hafter]
    exact List.filter_sublist.trans hsources
  | cleared hop hafter _ =>
    rw [hafter]
    exact List.nil_sublist _
  | resized hop _ hafter _ =>
    subst hop
    rw [hunused rfl, hafter]
    exact (List.drop_sublist _ _).trans hsources
  | stayed hnone _ hafter _ =>
    rw [hunused hnone, hafter]
    exact hsources

/-- A whole history keeps the cached sources in the order of their last use. -/
theorem Orderly.sources_run_sublist (h : cache.Orderly)
    (hsources : cache.sources.Sublist used.dedup) (history : List (Operation α)) :
    (cache.run history).sources.Sublist (used ++ cache.uses history).dedup := by
  induction history generalizing cache used with
  | nil =>
    rw [uses, List.append_nil]
    exact hsources
  | cons op rest ih =>
    rw [uses, ← List.append_assoc]
    exact ih (h.after op) (h.sources_after_sublist hsources op)

/-! ## §2 Sources that are gone -/

theorem uses_append {history more : List (Operation α)} :
    cache.uses (history ++ more) = cache.uses history ++ (cache.run history).uses more := by
  induction history generalizing cache with
  | nil => rfl
  | cons op rest ih => rw [List.cons_append, uses, uses, ih, List.append_assoc, run_cons]

/-- Other sources, each of them used in a while, fill the cache. -/
def Displaces (cache : Cache α) (source : String) (used : List String) : Prop :=
  ∃ others : List String, others.Nodup ∧ cache.bound ≤ others.length ∧
    ∀ other ∈ others, other ≠ source ∧ other ∈ cache.sources ∧ other ∈ used

/-- A source whose place others fill is not there. -/
theorem Displaces.notMem (h : cache.Orderly) (hdisplaces : cache.Displaces source used) :
    source ∉ cache.sources := by
  obtain ⟨others, hnodup, hbound, hothers⟩ := hdisplaces
  intro hmem
  -- The source and the others would be more than the bound allows.
  have hsubset : source :: others ⊆ cache.sources := by
    intro other hother
    rcases List.mem_cons.mp hother with rfl | hother
    · exact hmem
    · exact (hothers other hother).2.1
  have hall : (source :: others).Nodup :=
    List.nodup_cons.mpr ⟨fun hsource => (hothers source hsource).1 rfl, hnodup⟩
  have hlength := (hall.subperm hsubset).length_le
  have hfull := h.length
  rw [List.length_cons] at hlength
  omega

/-- A source that is gone stays so while it is not used. -/
theorem Orderly.notMem_after (h : cache.Orderly) (hmem : source ∉ cache.sources)
    (hunused : cache.used? op ≠ some source) : source ∉ (cache.after op).sources := by
  cases (h.after_turns op).2 with
  | @used other husing hafter _ =>
    have hne : source ≠ other := by
      rintro rfl
      exact hunused husing
    rw [hafter]
    intro hsource
    have hrenewed := List.mem_of_mem_drop hsource
    simp [renewed, hmem, hne] at hrenewed
  | forgot _ hafter _ =>
    rw [hafter]
    exact fun hsource => hmem (List.mem_of_mem_filter hsource)
  | cleared _ hafter _ => simp [hafter]
  | resized _ _ hafter _ =>
    rw [hafter]
    exact fun hsource => hmem (List.mem_of_mem_drop hsource)
  | stayed _ _ hafter _ => rwa [hafter]

theorem Orderly.notMem_run {history : List (Operation α)} (h : cache.Orderly)
    (hmem : source ∉ cache.sources) (hunused : source ∉ cache.uses history) :
    source ∉ (cache.run history).sources := by
  induction history generalizing cache with
  | nil => exact hmem
  | cons op rest ih =>
    rw [uses, List.mem_append, not_or] at hunused
    exact ih (h.after op) (h.notMem_after hmem (by simpa [Option.mem_toList] using hunused.1))
      hunused.2

/-- What is dropped is gone. -/
theorem Operation.Drops.notMem (hdrops : op.Drops source) : source ∉ (cache.after op).sources := by
  cases op with
  | forget other =>
    obtain rfl : other = source := hdrops
    show other ∉ (cache.forget other).2.sources
    simp [sources_forget]
  | clear => exact List.not_mem_nil
  | lookup _ => exact hdrops.elim
  | store _ _ => exact hdrops.elim
  | fetch _ _ => exact hdrops.elim
  | resize _ => exact hdrops.elim

/-! ## §3 Sources that are there -/

/-- A source is there, and what comes after it has been used in a while. -/
def Before (cache : Cache α) (source : String) (used : List String) : Prop :=
  ∃ front back, cache.sources = front ++ source :: back ∧ ∀ other ∈ back, other ∈ used

theorem Before.mem (h : cache.Before source used) : source ∈ cache.sources := by
  obtain ⟨front, back, hsources, -⟩ := h
  simp [hsources]

/-- When an order is cut to a bound a source keeps what comes after it, or that
fills the whole bound. -/
theorem kept_split (bound : Int) (front back : List String) (source : String) :
    (∃ front', kept bound (front ++ source :: back) = front' ++ source :: back) ∨
      kept bound (front ++ source :: back) ⊆ back ∧
        bound ≤ (kept bound (front ++ source :: back)).length := by
  generalize hsurplus : (front ++ source :: back).length - bound.toNat = surplus
  by_cases hfront : surplus ≤ front.length
  · left
    exact ⟨front.drop surplus, by rw [kept, hsurplus, List.drop_append_of_le_length hfront]⟩
  · right
    obtain ⟨more, rfl⟩ : ∃ more, surplus = front.length + (more + 1) :=
      ⟨surplus - front.length - 1, by omega⟩
    have hkept : kept bound (front ++ source :: back) = back.drop more := by
      rw [kept, hsurplus, List.drop_length_add_append, List.drop_succ_cons]
    refine ⟨hkept ▸ List.drop_subset _ _, ?_⟩
    rw [length_kept]
    omega

/-- However an order comes to be cut, a source is there, or what comes after it fills the cache. -/
theorem Orderly.before_or_displaces (h : cache.Orderly) {front back : List String}
    (hkept : cache.sources = kept cache.bound (front ++ source :: back)) (hnew : source ∉ back)
    (hused : ∀ other ∈ back, other ∈ used) :
    cache.Before source used ∨ cache.Displaces source used := by
  rcases kept_split cache.bound front back source with ⟨front', hsplit⟩ | ⟨hsubset, hlength⟩
  · exact .inl ⟨front', back, hkept.trans hsplit, hused⟩
  · rw [← hkept] at hsubset hlength
    refine .inr ⟨_, h.nodup, hlength, fun other hother =>
      ⟨?_, hother, hused other (hsubset hother)⟩⟩
    rintro rfl
    exact hnew (hsubset hother)

/-- An operation that neither uses nor drops a source leaves it there, or others
come to fill the cache. -/
theorem Before.step (h : cache.Orderly) (hbefore : cache.Before source used)
    (hunused : cache.used? op ≠ some source) (hdrops : ¬ op.Drops source) :
    (cache.after op).Before source (used ++ (cache.used? op).toList) ∨
      (cache.after op).Displaces source (used ++ (cache.used? op).toList) := by
  obtain ⟨front, back, hsources, hback⟩ := hbefore
  have hnew : source ∉ back := by
    have hnodup := h.nodup
    rw [hsources] at hnodup
    exact (List.nodup_cons.mp hnodup.of_append_right).1
  cases (h.after_turns op).2 with
  | @used other husing hturned hbound =>
    have hne : source ≠ other := by
      rintro rfl
      exact hunused husing
    have hkept : (cache.after op).sources = kept (cache.after op).bound
        (front.filter (· != other) ++ source :: (back.filter (· != other) ++ [other])) := by
      rw [hturned, hbound, renewed, hsources]
      simp [hne]
    refine (h.after op).before_or_displaces hkept ?_ ?_
    · simp [hnew, hne]
    · intro t ht
      rw [husing, Option.toList_some]
      rcases List.mem_append.mp ht with ht | ht
      · exact List.mem_append_left _ (hback t (List.mem_of_mem_filter ht))
      · exact List.mem_append_right _ ht
  | @forgot other hop hturned hbound =>
    have hne : source ≠ other := by
      rintro rfl
      exact hdrops (hop ▸ rfl)
    refine .inl ⟨front.filter (· != other), back.filter (· != other), ?_, ?_⟩
    · rw [hturned, hsources]
      simp [hne]
    · exact fun t ht => List.mem_append_left _ (hback t (List.mem_of_mem_filter ht))
  | cleared hop _ _ => exact absurd (hop ▸ trivial) hdrops
  | resized _ _ hturned hbound =>
    have hkept : (cache.after op).sources =
        kept (cache.after op).bound (front ++ source :: back) := by
      rw [hturned, hbound, hsources]
    exact (h.after op).before_or_displaces hkept hnew fun t ht =>
      List.mem_append_left _ (hback t ht)
  | stayed _ _ hturned _ =>
    exact .inl ⟨front, back, hturned.trans hsources, fun t ht =>
      List.mem_append_left _ (hback t ht)⟩

/-- In a history that neither uses nor drops it a source stays there, or at some moment
others fill the cache. -/
theorem Before.run {history : List (Operation α)} (h : cache.Orderly)
    (hbefore : cache.Before source used) (hunused : source ∉ cache.uses history)
    (hdrops : ∀ op ∈ history, ¬ op.Drops source) :
    source ∈ (cache.run history).sources ∨
      ∃ since rest, history = since ++ rest ∧
        (cache.run since).Displaces source (used ++ cache.uses since) := by
  induction history generalizing cache used with
  | nil => exact .inl hbefore.mem
  | cons op rest ih =>
    rw [uses, List.mem_append, not_or] at hunused
    have hop : cache.used? op ≠ some source := by simpa [Option.mem_toList] using hunused.1
    rcases hbefore.step h hop (hdrops op List.mem_cons_self) with hafter | hafter
    · rcases ih (h.after op) hafter hunused.2 fun op hmem =>
          hdrops op (List.mem_cons_of_mem _ hmem) with
        hmem | ⟨since, last, rfl, hdisplaces⟩
      · exact .inl hmem
      · refine .inr ⟨op :: since, last, rfl, ?_⟩
        rwa [uses, ← List.append_assoc]
    · refine .inr ⟨[op], rest, rfl, ?_⟩
      simpa [uses] using hafter

/-- What was used last comes last. -/
theorem Orderly.before_of_used (h : cache.Orderly) (hused : cache.used? op = some source) :
    (cache.after op).Before source [] :=
  ⟨_, [], (h.after_of_used hused).1.trans (kept_renewed h.positive _), by simp⟩

/-- **The cache evicts the least recently used.** In every history the cached sources, the first to
be evicted first, come in the order of their last use. And a source that was used, and not since, is
gone exactly if it was dropped since or at some moment since then other sources, all of them used
after it, were as many as the bound of that moment. -/
theorem least_recently_used {bound : Int} (hbound : 1 ≤ bound) (history : List (Operation α)) :
    (({ bound } : Cache α).run history).sources.Sublist (({ bound } : Cache α).uses history).dedup ∧
    ∀ (earlier : List (Operation α)) (op : Operation α) (later : List (Operation α))
        (source : String),
      history = earlier ++ op :: later →
      (({ bound } : Cache α).run earlier).used? op = some source →
      source ∉ (({ bound } : Cache α).run (earlier ++ [op])).uses later →
      (source ∉ (({ bound } : Cache α).run history).sources ↔
        (∃ op ∈ later, op.Drops source) ∨
        ∃ since rest, later = since ++ rest ∧
          (({ bound } : Cache α).run (earlier ++ op :: since)).Displaces source
            ((({ bound } : Cache α).run (earlier ++ [op])).uses since)) := by
  have hempty : Orderly ({ bound } : Cache α) := orderly_empty hbound
  constructor
  · have hnone : ({ bound } : Cache α).sources.Sublist ([] : List String).dedup :=
      List.nil_sublist _
    exact hempty.sources_run_sublist hnone history
  · rintro earlier op later source rfl hused hunused
    have hafter : (({ bound } : Cache α).run (earlier ++ [op])).Before source [] := by
      rw [run_append]
      exact (hempty.run earlier).before_of_used hused
    have horderly := hempty.run (earlier ++ [op])
    -- From here on only the cache counts in which the source has just been used.
    obtain ⟨cache, hcache⟩ : ∃ cache, ({ bound } : Cache α).run (earlier ++ [op]) = cache :=
      ⟨_, rfl⟩
    have hrun : ∀ since, ({ bound } : Cache α).run (earlier ++ op :: since) = cache.run since := by
      intro since
      rw [List.append_cons, run_append, hcache]
    rw [hcache] at hafter horderly hunused
    simp only [hrun, run_nil]
    constructor
    · intro hgone
      by_cases hdrops : ∃ op ∈ later, op.Drops source
      · exact .inl hdrops
      · rcases hafter.run horderly hunused (by simpa using hdrops) with hmem | hdisplaces
        · exact absurd hmem hgone
        · exact .inr hdisplaces
    · rintro (⟨op, hop, hdrops⟩ | ⟨since, rest, rfl, hdisplaces⟩)
      · obtain ⟨since, rest, rfl⟩ := List.append_of_mem hop
        rw [uses_append, List.mem_append, not_or, uses, List.mem_append, not_or] at hunused
        rw [run_append, run_cons]
        exact ((horderly.run since).after op).notMem_run hdrops.notMem hunused.2.2
      · rw [uses_append, List.mem_append, not_or] at hunused
        rw [run_append]
        exact (horderly.run since).notMem_run (hdisplaces.notMem (horderly.run since)) hunused.2

/-- With room for two, `a` is evicted when `b` and `c` have been used after it. -/
theorem least_recently_used_of_three :
    (1 : Int) ≤ 2 ∧
    (({ bound := 2 } : Cache Nat).run [.store "a" 1, .store "b" 2, .lookup "b",
      .store "c" 3]).sources = ["b", "c"] ∧
    ((∃ op ∈ [Operation.store "b" 2, .lookup "b", .store "c" 3], op.Drops "a") ∨
      ∃ since rest, [Operation.store "b" 2, .lookup "b", .store "c" 3] = since ++ rest ∧
        (({ bound := 2 } : Cache Nat).run (.store "a" 1 :: since)).Displaces "a"
          ((({ bound := 2 } : Cache Nat).run [.store "a" 1]).uses since)) := by
  refine ⟨by decide, by decide, ?_⟩
  exact ((least_recently_used (by decide : (1 : Int) ≤ 2)
    [.store "a" 1, .store "b" 2, .lookup "b", .store "c" 3]).2 [] (.store "a" 1) _ "a" rfl rfl
      (by decide)).mp (by decide)

end Switchyard.Cache
