import Mathlib.Data.List.Nodup
import Switchyard.Text.Sorted

/-!
# Sets of texts in order

A set of texts that is kept as a list is put in order and freed of repetitions before it is shown.
What is shown depends on the texts in it alone.

Main statement: `sortedSet_eq_iff`.
-/

namespace Switchyard.Text

theorem pairwise_sorted (xs : List String) : (sorted xs).Pairwise (· ≤ ·) := by
  have hsorted : (sorted xs).Pairwise fun a b => (!decide (b < a)) = true := by
    apply List.pairwise_mergeSort
    · intro a b c hab hbc
      simp only [Bool.not_eq_true', decide_eq_false_iff_not, String.not_lt] at hab hbc ⊢
      exact String.le_trans hab hbc
    · intro a b
      simp only [Bool.or_eq_true, Bool.not_eq_true', decide_eq_false_iff_not, String.not_lt]
      exact String.le_total a b
  simpa only [Bool.not_eq_true', decide_eq_false_iff_not, String.not_lt] using hsorted

/-- A list that is freed of repetitions is in the same order, with each text there once. -/
theorem pairwise_eraseDups {R : String → String → Prop} {xs : List String} (h : xs.Pairwise R) :
    xs.eraseDups.Pairwise fun a b => R a b ∧ a ≠ b := by
  -- The later copies of the head go first, so the induction is on the length.
  induction hlength : xs.length using Nat.strongRecOn generalizing xs with
  | _ n ih =>
    cases h with
    | nil => simp
    | @cons x rest hhead hrest =>
      rw [List.eraseDups_cons, List.pairwise_cons]
      constructor
      · intro y hy
        obtain ⟨hmem, hne⟩ := List.mem_filter.mp (List.mem_eraseDups.mp hy)
        exact ⟨hhead y hmem, fun hsame => by simp [hsame] at hne⟩
      · refine ih _ ?_ (hrest.filter _) rfl
        rw [← hlength, List.length_cons]
        exact Nat.lt_succ_of_le (List.length_filter_le _ _)

theorem pairwise_sortedSet (xs : List String) : (sortedSet xs).Pairwise fun a b => a ≤ b ∧ a ≠ b :=
  pairwise_eraseDups (pairwise_sorted xs)

theorem nodup_sortedSet (xs : List String) : (sortedSet xs).Nodup :=
  (pairwise_sortedSet xs).imp And.right

@[simp] theorem mem_sortedSet {x : String} {xs : List String} : x ∈ sortedSet xs ↔ x ∈ xs := by
  simp [sortedSet, sorted]

/-- **Sets are shown alike** exactly if they have the same texts. -/
theorem sortedSet_eq_iff {xs ys : List String} :
    sortedSet xs = sortedSet ys ↔ ∀ x, x ∈ xs ↔ x ∈ ys := by
  constructor
  · intro h x
    rw [← mem_sortedSet, h, mem_sortedSet]
  · intro h
    have hperm : (sortedSet xs).Perm (sortedSet ys) := by
      rw [List.perm_ext_iff_of_nodup (nodup_sortedSet xs) (nodup_sortedSet ys)]
      simpa using h
    apply hperm.eq_of_pairwise _ (pairwise_sortedSet xs) (pairwise_sortedSet ys)
    intro a b _ _ hab hba
    exact String.le_antisymm hab.1 hba.1

end Switchyard.Text
