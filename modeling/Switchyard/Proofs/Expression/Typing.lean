import Switchyard.Proofs.Expression.Overrun
import Switchyard.Proofs.Expression.Spelling
import Mathlib.Algebra.Ring.Int.Defs
import Mathlib.Data.List.Forall2

/-!
# The types of sums

A sum joins two texts, writes a number next to a text as its text, and adds two numbers; anything
else it refuses. Which of these happens is decided anew at every sum of a tree. Yet how the whole
tree ends can be told from the values at its leaves alone, in whatever way the sums are nested.

Main statement: without doubles, a tree has a value exactly if every leaf is a text or an integer
(`evaluate_typed_by_leaves`).
-/

namespace Switchyard

/-- **A summand**: a text or an integer. A truth value is none. -/
inductive Value.IsSummand : Value → Prop
  | text (s : String) : IsSummand (.text s)
  | int (n : Int) : IsSummand (.int n)

namespace Expression

variable {σ : Store} {context left right v : Value} {leaf tree : Tree} {leaves others : List Tree}

/-! ## §1 Single sums -/

/-- **Summands have a sum**, which is one again: a text if one of them is, and else the
sum of two integers. -/
theorem exists_add_of_isSummand (hleft : left.IsSummand) (hright : right.IsSummand) (σ : Store) :
    ∃ v, add σ left right = .ok v ∧ v.IsSummand ∧
      ((∃ s, v = .text s) ↔ (∃ s, left = .text s) ∨ ∃ s, right = .text s) ∧
      ∀ m n, left = .int m → right = .int n → v = .int (m + n) := by
  cases hleft with
  | text s =>
    cases hright with
    | text t => exact ⟨.text (s ++ t), rfl, .text _, by simp, by simp⟩
    | int n => exact ⟨.text (s ++ (Scalar.int n).shown), rfl, .text _, by simp, by simp⟩
  | int m =>
    cases hright with
    | text t => exact ⟨.text ((Scalar.int m).shown ++ t), rfl, .text _, by simp, by simp⟩
    | int n =>
      refine ⟨.int (m + n), rfl, .int _, by simp, ?_⟩
      rintro m' n' ⟨⟩ ⟨⟩
      rfl

/-- What adds to a phrase is a summand or a double. -/
theorem isSummand_of_asPhrase? {s : String} (h : asPhrase? v = some s) :
    v.IsSummand ∨ ∃ x : Float, v = .atom (.float x) := by
  unfold asPhrase? at h
  split at h
  · exact .inl (.text _)
  · exact .inl (.int _)
  · exact .inr ⟨_, rfl⟩
  · cases h

/-- **Operands without a sum**: if neither of two operands is a double and one of them is no
summand, they are refused. -/
theorem add_of_not_isSummand (hleft : ∀ x : Float, left ≠ .atom (.float x))
    (hright : ∀ x : Float, right ≠ .atom (.float x))
    (h : ¬ (left.IsSummand ∧ right.IsSummand)) (σ : Store) :
    add σ left right = .error (.mismatch (left.kindName σ) (right.kindName σ)) := by
  unfold add
  dsimp only
  split_ifs with htext
  · split
    · rename_i s t hs ht
      have hl := (isSummand_of_asPhrase? hs).resolve_right fun ⟨x, hx⟩ => hleft x hx
      have hr := (isSummand_of_asPhrase? ht).resolve_right fun ⟨x, hx⟩ => hright x hx
      exact absurd ⟨hl, hr⟩ h
    · rfl
  · split
    · exact absurd ⟨.int _, .int _⟩ h
    · exact absurd rfl (hleft _)
    · exact absurd rfl (hright _)
    · exact absurd rfl (hleft _)
    · rfl

/-! ## §2 Trees -/

/-- A leaf has a text for its value. -/
def Tree.IsText (σ : Store) (context : Value) (leaf : Tree) : Prop :=
  ∃ s, leaf.evaluate σ context = .ok (.text s)

/-- A leaf has a summand for its value. -/
def Tree.IsSummand (σ : Store) (context : Value) (leaf : Tree) : Prop :=
  ∃ v, leaf.evaluate σ context = .ok v ∧ v.IsSummand

/-- **The total of leaves**: a text if one of them is a text, and else the sum of the
integers that they are. -/
structure IsTotal (σ : Store) (context : Value) (leaves : List Tree) (v : Value) : Prop where
  isSummand : v.IsSummand
  isText_iff : (∃ s, v = .text s) ↔ ∃ leaf ∈ leaves, leaf.IsText σ context
  eq_sum : (¬ ∃ leaf ∈ leaves, leaf.IsText σ context) →
    ∃ ns : List Int, List.Forall₂ (fun leaf n => leaf.evaluate σ context = .ok (.int n)) leaves ns ∧
      v = .int ns.sum

/-- A summand is the total of one leaf. -/
theorem isTotal_singleton (hv : leaf.evaluate σ context = .ok v) (h : v.IsSummand) :
    IsTotal σ context [leaf] v where
  isSummand := h
  isText_iff := by simp [Tree.IsText, hv]
  eq_sum hnone := by
    cases h with
    | text s => exact absurd ⟨leaf, List.mem_singleton_self _, s, hv⟩ hnone
    | int n => exact ⟨[n], .cons hv .nil, by simp⟩

/-- **Totals add up**: the sum of two totals is the total of all leaves. -/
theorem IsTotal.add (hleft : IsTotal σ context leaves left)
    (hright : IsTotal σ context others right) :
    ∃ v, Expression.add σ left right = .ok v ∧ IsTotal σ context (leaves ++ others) v := by
  obtain ⟨v, hadd, hv, htext, hint⟩ := exists_add_of_isSummand hleft.isSummand hright.isSummand σ
  have hsplit : (∃ leaf ∈ leaves ++ others, leaf.IsText σ context) ↔
      (∃ leaf ∈ leaves, leaf.IsText σ context) ∨ ∃ leaf ∈ others, leaf.IsText σ context := by
    simp only [List.mem_append, or_and_right, exists_or]
  refine ⟨v, hadd, hv, ?_, fun hnone => ?_⟩
  · rw [htext, hleft.isText_iff, hright.isText_iff, hsplit]
  · -- Without texts both sides are sums of integers.
    obtain ⟨hnone, hnone'⟩ := not_or.mp (mt hsplit.mpr hnone)
    obtain ⟨ns, hns, rfl⟩ := hleft.eq_sum hnone
    obtain ⟨ms, hms, rfl⟩ := hright.eq_sum hnone'
    exact ⟨ns ++ ms, List.rel_append hns hms, by rw [hint _ _ rfl rfl, List.sum_append]⟩

/-- **Summands at all leaves** add up to their total, however they are nested. -/
theorem exists_evaluate_isTotal (h : ∀ leaf ∈ tree.leaves, leaf.IsSummand σ context) :
    ∃ v, tree.evaluate σ context = .ok v ∧ IsTotal σ context tree.leaves v := by
  induction tree with
  | literal _ | path _ | alien _ =>
    obtain ⟨v, hv, hsummand⟩ := h _ (List.mem_singleton_self _)
    exact ⟨v, hv, isTotal_singleton hv hsummand⟩
  | binary operator left right ihLeft ihRight =>
    obtain ⟨hleft, hright⟩ := List.forall_mem_append.mp h
    obtain ⟨l, hl, hltotal⟩ := ihLeft hleft
    obtain ⟨r, hr, hrtotal⟩ := ihRight hright
    obtain ⟨v, hadd, htotal⟩ := hltotal.add hrtotal
    refine ⟨v, ?_, htotal⟩
    rw [Tree.evaluate, hl, hr]
    exact hadd

/-- What a tree comes to that is no summand at some leaf: it is that leaf itself, or a
sum that is refused. -/
def Refused (σ : Store) (context : Value) (tree : Tree) : Prop :=
  (tree.isSum = false ∧ ∃ v, tree.evaluate σ context = .ok v ∧ ¬ v.IsSummand) ∨
    ∃ l r, tree.evaluate σ context = .error (.mismatch l r)

/-- A tree that is refused unless all its leaves are summands has a value, which is a summand
exactly then, or a sum in it is refused. -/
theorem value_or_mismatch
    (h : (¬ ∀ leaf ∈ tree.leaves, leaf.IsSummand σ context) → Refused σ context tree) :
    (∃ v, tree.evaluate σ context = .ok v ∧
      (v.IsSummand ↔ ∀ leaf ∈ tree.leaves, leaf.IsSummand σ context)) ∨
      ∃ l r, tree.evaluate σ context = .error (.mismatch l r) := by
  by_cases hall : ∀ leaf ∈ tree.leaves, leaf.IsSummand σ context
  · obtain ⟨v, hv, htotal⟩ := exists_evaluate_isTotal hall
    exact .inl ⟨v, hv, iff_of_true htotal.isSummand hall⟩
  · rcases h hall with ⟨-, v, hv, hnot⟩ | hmismatch
    · exact .inl ⟨v, hv, iff_of_false hnot hall⟩
    · exact .inr hmismatch

/-- **One leaf that is no summand** is enough: somewhere on the way to the root a sum is refused. -/
theorem refused_of_leaf (hvalues : ∀ leaf ∈ tree.leaves, ∃ v, leaf.evaluate σ context = .ok v)
    (hdouble : ∀ leaf ∈ tree.leaves, ∀ x : Float, leaf.evaluate σ context ≠ .ok (.atom (.float x)))
    (h : ¬ ∀ leaf ∈ tree.leaves, leaf.IsSummand σ context) : Refused σ context tree := by
  induction tree with
  | literal _ | path _ | alien _ =>
    obtain ⟨v, hv⟩ := hvalues _ (List.mem_singleton_self _)
    refine .inl ⟨rfl, v, hv, fun hsummand => h ?_⟩
    intro leaf hleaf
    obtain rfl := List.mem_singleton.mp hleaf
    exact ⟨v, hv, hsummand⟩
  | binary operator left right ihLeft ihRight =>
    obtain ⟨hleft, hright⟩ := List.forall_mem_append.mp hvalues
    obtain ⟨hleftDouble, hrightDouble⟩ := List.forall_mem_append.mp hdouble
    -- Neither side is a double, since none of its leaves is.
    have hl := (Tree.not_overruns_of_leaves hleftDouble).1
    have hr := (Tree.not_overruns_of_leaves hrightDouble).1
    rcases value_or_mismatch (ihLeft hleft hleftDouble)
        with ⟨l, hlv, hlsummand⟩ | ⟨k, k', hmismatch⟩
    · rcases value_or_mismatch (ihRight hright hrightDouble)
          with ⟨r, hrv, hrsummand⟩ | ⟨k, k', hmismatch⟩
      · have hnot : ¬ (l.IsSummand ∧ r.IsSummand) := by
          rw [hlsummand, hrsummand]
          exact fun hboth => h (List.forall_mem_append.mpr hboth)
        refine .inr ⟨l.kindName σ, r.kindName σ, ?_⟩
        rw [Tree.evaluate, hlv, hrv]
        exact add_of_not_isSummand (fun x hx => hl x (hx ▸ hlv))
          (fun x hx => hr x (hx ▸ hrv)) hnot σ
      · refine .inr ⟨k, k', ?_⟩
        rw [Tree.evaluate, hlv, hmismatch]
        rfl
    · refine .inr ⟨k, k', ?_⟩
      rw [Tree.evaluate, hmismatch]
      rfl

/-- **The types of sums**: a tree of sums all of whose leaves have values, none of them a
double, has a value exactly if every leaf is a text or an integer; else the operands of a sum
are refused for their types. Its value is a text exactly if a leaf is one, and it is the sum of
the leaves if none is. -/
theorem evaluate_typed_by_leaves (hsum : tree.isSum = true)
    (hvalues : ∀ leaf ∈ tree.leaves, ∃ v, leaf.evaluate σ context = .ok v)
    (hdouble : ∀ leaf ∈ tree.leaves, ∀ x : Float, leaf.evaluate σ context ≠
      .ok (.atom (.float x))) :
    ((∃ v, tree.evaluate σ context = .ok v) ↔ ∀ leaf ∈ tree.leaves, leaf.IsSummand σ context) ∧
    ((¬ ∀ leaf ∈ tree.leaves, leaf.IsSummand σ context) →
      ∃ e l r, tree.evaluate σ context = .error e ∧ e.raised = .fault (.mismatch "+" l r)) ∧
    ∀ v, tree.evaluate σ context = .ok v →
      ((∃ s, v = .text s) ↔ ∃ leaf ∈ tree.leaves, leaf.IsText σ context) ∧
      ((¬ ∃ leaf ∈ tree.leaves, leaf.IsText σ context) → ∃ ns : List Int,
        List.Forall₂ (fun leaf n => leaf.evaluate σ context = .ok (.int n)) tree.leaves ns ∧
          v = .int ns.sum) := by
  have hrefused : (¬ ∀ leaf ∈ tree.leaves, leaf.IsSummand σ context) →
      ∃ l r, tree.evaluate σ context = .error (.mismatch l r) := by
    intro hnot
    rcases refused_of_leaf hvalues hdouble hnot with ⟨hleaf, -⟩ | hmismatch
    · rw [hsum] at hleaf
      cases hleaf
    · exact hmismatch
  have hall : ∀ v, tree.evaluate σ context = .ok v →
      ∀ leaf ∈ tree.leaves, leaf.IsSummand σ context := by
    intro v hv
    by_contra hnot
    obtain ⟨l, r, herror⟩ := hrefused hnot
    rw [hv] at herror
    cases herror
  refine ⟨⟨fun ⟨v, hv⟩ => hall v hv, fun h => ?_⟩, fun hnot => ?_, fun v hv => ?_⟩
  · obtain ⟨v, hv, -⟩ := exists_evaluate_isTotal h
    exact ⟨v, hv⟩
  · obtain ⟨l, r, herror⟩ := hrefused hnot
    exact ⟨_, l, r, herror, rfl⟩
  · obtain ⟨w, hw, htotal⟩ := exists_evaluate_isTotal (hall v hv)
    obtain rfl := Except.ok.inj (hv.symm.trans hw)
    exact ⟨htotal.isText_iff, htotal.eq_sum⟩

/-- A number next to one from the input, and a text. -/
def countedSum : Tree :=
  .binary "+" (.binary "+" (.literal (.int 1)) (.path [.name "n"])) (.literal (.text " left"))

/-- The sum has a value, which is a text. -/
theorem evaluate_typed_by_leaves_countedSum :
    countedSum.isSum = true ∧ ∃ s, countedSum.evaluate .empty (.map [(.text "n", .int 2)]) =
      .ok (.text s) := by
  have hvalues : ∀ leaf ∈ countedSum.leaves, ∃ v, v.IsSummand ∧
      leaf.evaluate .empty (.map [(.text "n", .int 2)]) = .ok v := by
    intro leaf hleaf
    simp only [countedSum, Tree.leaves, List.cons_append, List.nil_append, List.mem_cons,
      List.not_mem_nil, or_false] at hleaf
    rcases hleaf with rfl | rfl | rfl
    · exact ⟨_, .int 1, rfl⟩
    · exact ⟨_, .int 2, rfl⟩
    · exact ⟨_, .text " left", rfl⟩
  have hdouble : ∀ leaf ∈ countedSum.leaves, ∀ x : Float,
      leaf.evaluate .empty (.map [(.text "n", .int 2)]) ≠ .ok (.atom (.float x)) := by
    intro leaf hleaf x hx
    obtain ⟨v, hv, hvalue⟩ := hvalues leaf hleaf
    obtain rfl := Except.ok.inj (hvalue.symm.trans hx)
    cases hv
  obtain ⟨hiff, -, htyped⟩ :=
    evaluate_typed_by_leaves rfl (fun leaf hleaf => (hvalues leaf hleaf).imp fun _ h => h.2) hdouble
  obtain ⟨v, hv⟩ := hiff.mpr fun leaf hleaf => (hvalues leaf hleaf).imp fun _ h => h.symm
  -- The last leaf is a text.
  obtain ⟨s, rfl⟩ :=
    (htyped v hv).1.mpr ⟨.literal (.text " left"), by simp [countedSum, Tree.leaves], " left", rfl⟩
  exact ⟨rfl, s, hv⟩

end Expression

end Switchyard
