import Switchyard.Proofs.Cache.History

/-!
# A larger cache has everything that a smaller one has

Two caches go through the same history, one of them with more room. A look-up may hit in the larger
and miss in the smaller, so that only one of them reads, stores or evicts. What is kept all along is
that the larger has the sources of the smaller in the same order, and no more beyond them than its
bound is beyond that of the smaller.

Main statements: one operation keeps this (`Covers.after`), and therefore no hit is lost
(`larger_never_loses_a_hit`).
-/

namespace Switchyard.Cache

variable {α : Type} {small large : Cache α} {source : String} {op : Operation α}

/-- **The larger cache covers the smaller**: it has the same sources in the same order, and
not too many others. -/
structure Covers (small large : Cache α) : Prop where
  orderly : small.Orderly
  orderly' : large.Orderly
  sources : small.sources.Sublist large.sources
  room : large.sources.length + small.bound ≤ small.sources.length + large.bound

/-- The surplus of the larger order comes off first. -/
theorem kept_sublist {m n : Int} {order order' : List String} (hm : 1 ≤ m)
    (h : order.Sublist order') (hroom : order'.length + m ≤ order.length + n) :
    (kept m order).Sublist (kept n order') := by
  have hle : order'.length - n.toNat ≤ order.length - m.toNat := by
    have := h.length_le
    omega
  exact (List.drop_sublist_drop_left order hle).trans (h.drop _)

/-- What only the larger uses is what only the larger has. -/
theorem mem_of_used_larger (hsmall : small.used? op = none)
    (hlarge : large.used? op = some source) : source ∈ large.sources ∧ source ∉ small.sources := by
  cases op with
  | lookup other =>
    by_cases hmem : other ∈ small.sources
    · simp [used?, contains_iff, hmem] at hsmall
    · by_cases hmem' : other ∈ large.sources
      · simp only [used?, contains_iff, hmem', if_true, Option.some.injEq] at hlarge
        exact hlarge ▸ ⟨hmem', hmem⟩
      · simp [used?, contains_iff, hmem'] at hlarge
  | store _ _ => cases hsmall
  | fetch read other =>
    by_cases hmem : other ∈ small.sources
    · simp [used?, contains_iff, hmem] at hsmall
    · cases hread : read other with
      | ok x => simp [used?, hread] at hsmall
      | error e =>
        by_cases hmem' : other ∈ large.sources
        · simp only [used?, contains_iff, hmem', if_true, Option.some.injEq] at hlarge
          exact hlarge ▸ ⟨hmem', hmem⟩
        · simp [used?, contains_iff, hmem', hread] at hlarge
  | forget _ => cases hlarge
  | clear => cases hlarge
  | resize _ => cases hlarge

namespace Covers

variable (h : Covers small large)

include h

theorem mem (hmem : source ∈ small.sources) : source ∈ large.sources := h.sources.subset hmem

/-- What the smaller uses the larger uses too. -/
theorem used (hused : small.used? op = some source) : large.used? op = some source := by
  cases op with
  | lookup other =>
    by_cases hmem : other ∈ small.sources
    · simpa [used?, contains_iff, hmem, h.mem hmem] using hused
    · simp [used?, contains_iff, hmem] at hused
  | store _ _ => exact hused
  | fetch read other =>
    by_cases hmem : other ∈ small.sources
    · simpa [used?, contains_iff, hmem, h.mem hmem] using hused
    · cases hread : read other with
      | ok x =>
        simp only [used?, contains_iff, hmem, if_false, hread] at hused
        simp only [used?, hread, ite_self, hused]
      | error e => simp [used?, contains_iff, hmem, hread] at hused
  | forget _ => cases hused
  | clear => cases hused
  | resize _ => cases hused

theorem hits_le (op : Operation α) : (small.hits op).toNat ≤ (large.hits op).toNat := by
  have hle : ∀ source, (small.contains source).toNat ≤ (large.contains source).toNat := by
    intro source
    by_cases hmem : source ∈ small.sources
    · have hboth : small.contains source = large.contains source :=
        (contains_iff.mpr hmem).trans (contains_iff.mpr (h.mem hmem)).symm
      exact Nat.le_of_eq (congrArg Bool.toNat hboth)
    · rw [contains_eq_false_iff.mpr hmem]
      exact Nat.zero_le _
  cases op with
  | lookup source => exact hle source
  | fetch _ source => exact hle source
  | store _ _ => exact Nat.le_refl _
  | forget _ => exact Nat.le_refl _
  | clear => exact Nat.le_refl _
  | resize _ => exact Nat.le_refl _

/-- Both use the source: it comes last in both, and both are cut. -/
theorem after_of_used (hused : small.used? op = some source) :
    Covers (small.after op) (large.after op) := by
  obtain ⟨hsmall, hsmallBound⟩ := h.orderly.after_of_used hused
  obtain ⟨hlarge, hlargeBound⟩ := h.orderly'.after_of_used (h.used hused)
  have hrenewed : (renewed small.sources source).Sublist (renewed large.sources source) :=
    renewed_sublist h.sources
  have hroom : (renewed large.sources source).length + small.bound ≤
      (renewed small.sources source).length + large.bound := by
    have := h.room
    by_cases hmem : source ∈ small.sources
    · rw [length_renewed_of_mem h.orderly.nodup hmem,
        length_renewed_of_mem h.orderly'.nodup (h.mem hmem)]
      omega
    · rw [length_renewed_of_notMem hmem]
      by_cases hlargeMem : source ∈ large.sources
      · rw [length_renewed_of_mem h.orderly'.nodup hlargeMem]
        omega
      · rw [length_renewed_of_notMem hlargeMem]
        omega
  refine ⟨h.orderly.after op, h.orderly'.after op, ?_, ?_⟩
  · rw [hsmall, hlarge]
    exact kept_sublist h.orderly.positive hrenewed hroom
  · have := h.orderly.bound
    have := hrenewed.length_le
    rw [hsmall, hlarge, hsmallBound, hlargeBound, length_kept, length_kept]
    omega

/-- Only the larger uses the source, which the smaller does not have. -/
theorem after_of_used_larger (hbound : op.KeepsBound) (hsmall : small.used? op = none)
    (hlarge : large.used? op = some source) : Covers (small.after op) (large.after op) := by
  obtain ⟨hmem, hnew⟩ := mem_of_used_larger hsmall hlarge
  obtain ⟨hsame, hsameBound⟩ := h.orderly.after_of_unused hsmall (not_drops_of_used hlarge) hbound
  obtain ⟨hafter, hafterBound⟩ := h.orderly'.after_of_used hlarge
  rw [h.orderly'.kept_renewed_of_mem hmem] at hafter
  refine ⟨h.orderly.after op, h.orderly'.after op, ?_, ?_⟩
  · rw [hsame, hafter, ← filter_of_notMem hnew]
    exact (h.sources.filter _).trans (List.sublist_append_left _ _)
  · rw [hsame, hsameBound, hafter, hafterBound, length_renewed_of_mem h.orderly'.nodup hmem]
    exact h.room

/-- Neither uses a source: both drop the same, or nothing. -/
theorem after_of_unused (hbound : op.KeepsBound) (hsmall : small.used? op = none)
    (hlarge : large.used? op = none) : Covers (small.after op) (large.after op) := by
  have hroom := h.room
  cases (h.orderly.after_turns op).2 with
  | used hused _ _ => simp [hsmall] at hused
  | @forgot source hop hafter hsame =>
    subst hop
    have hafter' : (large.after (.forget source)).sources = large.sources.filter (· != source) :=
      sources_forget
    have hsame' : (large.after (.forget source)).bound = large.bound := bound_forget
    refine ⟨h.orderly.after _, h.orderly'.after _, ?_, ?_⟩
    · rw [hafter, hafter']
      exact h.sources.filter _
    · rw [hsame, hsame', hafter, hafter', ← h.orderly.nodup.erase_eq_filter,
        ← h.orderly'.nodup.erase_eq_filter, List.length_erase, List.length_erase]
      by_cases hmem : source ∈ small.sources
      · have := List.length_pos_of_mem hmem
        have := List.length_pos_of_mem (h.mem hmem)
        simp only [hmem, h.mem hmem, if_true]
        omega
      · simp only [hmem, if_false]
        split <;> omega
  | cleared hop _ _ =>
    subst hop
    refine ⟨h.orderly.after _, h.orderly'.after _, List.nil_sublist _, ?_⟩
    have := h.sources.length_le
    show (0 : Nat) + small.bound ≤ (0 : Nat) + large.bound
    omega
  | resized hop _ _ _ => exact (hop ▸ hbound : (Operation.resize _ : Operation α).KeepsBound).elim
  | stayed _ hdrops hafter hsame =>
    obtain ⟨hafter', hsame'⟩ := h.orderly'.after_of_unused hlarge hdrops hbound
    refine ⟨h.orderly.after op, h.orderly'.after op, ?_, ?_⟩
    · rw [hafter, hafter']
      exact h.sources
    · rw [hafter, hafter', hsame, hsame']
      exact hroom

/-- **The larger cache goes on covering the smaller**, whatever operation both go through. -/
theorem after (hbound : op.KeepsBound) : Covers (small.after op) (large.after op) := by
  cases hsmall : small.used? op with
  | some source => exact h.after_of_used hsmall
  | none =>
    cases hlarge : large.used? op with
    | some source => exact h.after_of_used_larger hbound hsmall hlarge
    | none => exact h.after_of_unused hbound hsmall hlarge

/-- After a history the larger cache still covers the smaller, and has had no fewer hits in it. -/
theorem run {history : List (Operation α)} (hhits : small.stats.hits ≤ large.stats.hits)
    (hbound : ∀ op ∈ history, op.KeepsBound) :
    Covers (small.run history) (large.run history) ∧
      (small.run history).stats.hits ≤ (large.run history).stats.hits := by
  induction history generalizing small large with
  | nil => exact ⟨h, hhits⟩
  | cons op rest ih =>
    refine ih (h.after (hbound op List.mem_cons_self)) ?_ fun op hmem =>
      hbound op (List.mem_cons_of_mem _ hmem)
    rw [h.orderly.hits_after, h.orderly'.hits_after]
    exact Nat.add_le_add hhits (h.hits_le op)

/-- What the smaller finds the larger finds. -/
theorem lookup (hlookup : (small.lookup source).1.isSome) : (large.lookup source).1.isSome := by
  by_cases hmem : source ∈ small.sources
  · exact (h.orderly'.lookup_of_mem (h.mem hmem)).1
  · rw [h.orderly.lookup_of_notMem hmem] at hlookup
    cases hlookup

end Covers

/-- **A larger cache never loses a hit.** Two caches, the second with at least as much room, go from
empty through the same history, in which reading may fail and the bounds stay. Then the second has
every source that the first has, every look-up that hits in the first hits in the second, and the
second has counted no fewer hits. -/
theorem larger_never_loses_a_hit {m n : Int} (hm : 1 ≤ m) (hmn : m ≤ n)
    (history : List (Operation α)) (hbound : ∀ op ∈ history, op.KeepsBound) :
    (∀ source, (({ bound := m } : Cache α).run history).contains source = true →
      (({ bound := n } : Cache α).run history).contains source = true) ∧
    (∀ source, ((({ bound := m } : Cache α).run history).lookup source).1.isSome →
      ((({ bound := n } : Cache α).run history).lookup source).1.isSome) ∧
    (({ bound := m } : Cache α).run history).stats.hits ≤
      (({ bound := n } : Cache α).run history).stats.hits := by
  have hempty : Covers ({ bound := m } : Cache α) { bound := n } :=
    { orderly := orderly_empty hm
      orderly' := orderly_empty (Int.le_trans hm hmn)
      sources := List.nil_sublist _
      room := by
        show (0 : Nat) + m ≤ (0 : Nat) + n
        omega }
  obtain ⟨hcovers, hhits⟩ := hempty.run (Nat.le_refl _) hbound
  exact ⟨fun _ hmem => contains_iff.mpr (hcovers.mem (contains_iff.mp hmem)), fun _ =>
    hcovers.lookup, hhits⟩

/-- With room for one source the second look-up misses; with room for two it hits. -/
theorem larger_never_loses_a_hit_one_two :
    ((({ bound := 1 } : Cache Nat).run [.store "a" 1, .store "b" 2,
      .fetch (fun _ => .ok 3) "a"]).stats.hits = 0 ∧
      (({ bound := 2 } : Cache Nat).run [.store "a" 1, .store "b" 2,
        .fetch (fun _ => .ok 3) "a"]).stats.hits = 1) ∧
    (({ bound := 2 } : Cache Nat).run [.store "a" 1, .store "b" 2,
      .fetch (fun _ => .ok 3) "a"]).contains "a" = true :=
  ⟨by decide, (larger_never_loses_a_hit (α := Nat) (m := 1) (n := 2) (by decide) (by decide)
    [.store "a" 1, .store "b" 2, .fetch (fun _ => .ok 3) "a"] (by simp [Operation.KeepsBound])).1
      "a" (by decide)⟩

end Switchyard.Cache
