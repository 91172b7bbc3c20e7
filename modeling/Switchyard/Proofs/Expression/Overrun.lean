import Switchyard.Proofs.Expression.Parsing
import Switchyard.Proofs.Value.Record

/-!
# How an evaluation fails

An evaluation is to fail in two ways only: a field is not found, or the operands of a sum are of
types that have no sum. An expression that was read keeps to that with one exception. An integer
next to a double is rounded to a double first, and an integer beyond the largest double cannot be:
then the sum *overruns*.

Main statement: an evaluation fails as it is to, exactly if it comes to no such sum
(`evaluate_asPromised_iff`).
-/

namespace Switchyard

/-- **Data as a request brings it**: null, truth values, numbers and texts, lists of such data, and
maps with different texts for keys. -/
inductive Value.IsJson : Value → Prop
  | null : IsJson .null
  | bool (b : Bool) : IsJson (.bool b)
  | int (n : Int) : IsJson (.int n)
  | float (x : Float) : IsJson (.atom (.float x))
  | text (s : String) : IsJson (.text s)
  | list {items : List Value} : (∀ v ∈ items, IsJson v) → IsJson (.list items)
  | map {fields : List (String × Value)} :
      (fields.map (·.1)).Nodup → (∀ field ∈ fields, IsJson field.2) →
      IsJson (.map (Entries.ofFields fields))

/-- An error that tells why an expression has no value: a field that is not found, or
operands without a sum. -/
def Raised.IsEvaluation (e : Raised) : Prop :=
  (∃ path segment reason, e = .fault (.missing path segment reason)) ∨
    ∃ operator left right, e = .fault (.mismatch operator left right)

/-- An integer has no double near it exactly if it is beyond the largest one. -/
theorem Decimal.ofInt?_eq_none_iff {n : Int} :
    Decimal.ofInt? n = none ↔ Decimal.overflowBound ≤ n.natAbs := by
  unfold Decimal.ofInt?
  split_ifs with h <;> simp [h]

namespace Expression

variable {σ : Store} {context left right v : Value}

/-! ## §1 Promised ends -/

/-- An evaluation has one of the promised ends: a value, or an error that
tells why there is none. -/
def AsPromised (result : Except EvalProblem Value) : Prop :=
  (∃ v, result = .ok v) ∨ ∃ p, result = .error p ∧ p.raised.IsEvaluation

theorem asPromised_missing (walked : List Segment) (segment : Segment) (reason : MissReason) :
    AsPromised (.error (.missing walked segment reason)) :=
  .inr ⟨_, rfl, .inl ⟨_, _, _, rfl⟩⟩

theorem asPromised_mismatch (a b : String) : AsPromised (.error (.mismatch a b)) :=
  .inr ⟨_, rfl, .inr ⟨_, _, _, rfl⟩⟩

theorem not_asPromised_tooLarge : ¬ AsPromised (.error .tooLarge) := by
  rintro (⟨v, hv⟩ | ⟨p, hp, ⟨_, _, _, hmissing⟩ | ⟨_, _, _, hmismatch⟩⟩)
  · cases hv
  · obtain rfl := Except.error.inj hp
    cases hmissing
  · obtain rfl := Except.error.inj hp
    cases hmismatch

/-- **When an evaluation overruns**: it does exactly if `p` holds, and else it has one
of the promised ends. -/
def OverrunsIf (p : Prop) (result : Except EvalProblem Value) : Prop :=
  (¬ p ∧ AsPromised result) ∨ (p ∧ result = .error .tooLarge)

namespace OverrunsIf

variable {p : Prop} {q : Value → Prop} {result : Except EvalProblem Value}

/-- Evaluations in a row overrun if the first one does, or the second one does with the
value of the first. -/
theorem bind {k : Value → Except EvalProblem Value} (h : OverrunsIf p result)
    (hk : ∀ v, result = .ok v → OverrunsIf (q v) (k v)) :
    OverrunsIf (p ∨ ∃ v, result = .ok v ∧ q v) (result >>= k) := by
  rcases h with ⟨hnot, ⟨v, rfl⟩ | ⟨problem, rfl, hpromised⟩⟩ | ⟨hp, rfl⟩
  · -- The second evaluation goes on with the value of the first.
    rcases hk v rfl with ⟨hnot', hends⟩ | ⟨hq, htoo⟩
    · refine .inl ⟨?_, hends⟩
      rintro (hp | ⟨w, hw, hq⟩)
      · exact hnot hp
      · obtain rfl := Except.ok.inj hw
        exact hnot' hq
    · exact .inr ⟨.inr ⟨v, rfl, hq⟩, htoo⟩
  · refine .inl ⟨?_, .inr ⟨problem, rfl, hpromised⟩⟩
    rintro (hp | ⟨w, hw, -⟩)
    · exact hnot hp
    · cases hw
  · exact .inr ⟨.inl hp, rfl⟩

theorem asPromised_iff (h : OverrunsIf p result) : AsPromised result ↔ ¬ p := by
  rcases h with ⟨hnot, hends⟩ | ⟨hp, rfl⟩
  · exact iff_of_true hends hnot
  · exact iff_of_false not_asPromised_tooLarge (not_not.mpr hp)

theorem eq_tooLarge (h : OverrunsIf p result) (hp : p) : result = .error .tooLarge := by
  rcases h with ⟨hnot, -⟩ | ⟨-, htoo⟩
  · exact absurd hp hnot
  · exact htoo

end OverrunsIf

/-! ## §2 Sums -/

/-- **Operands that overrun**: a double, and an integer beyond the largest double. -/
def Overrunning (left right : Value) : Prop :=
  ∃ (n : Int) (x : Float), Decimal.overflowBound ≤ n.natAbs ∧
    (left = .int n ∧ right = .atom (.float x) ∨ left = .atom (.float x) ∧ right = .int n)

/-- A text overruns nothing. -/
theorem not_overrunning_of_text (h : left.asText?.isSome ∨ right.asText?.isSome) :
    ¬ Overrunning left right := by
  rintro ⟨n, x, -, ⟨rfl, rfl⟩ | ⟨rfl, rfl⟩⟩ <;> simp [Value.asText?] at h

/-- **When a sum overruns**: exactly if its operands do. -/
theorem add_overrunsIf (σ : Store) (left right : Value) :
    OverrunsIf (Overrunning left right) (add σ left right) := by
  unfold add
  dsimp only
  split_ifs with htext
  -- With a text on either side both are put together as texts or have no sum.
  · refine .inl ⟨not_overrunning_of_text htext, ?_⟩
    split
    · exact .inl ⟨_, rfl⟩
    · exact asPromised_mismatch ..
  · split
    · exact .inl ⟨by simp [Overrunning], .inl ⟨_, rfl⟩⟩
    · exact .inl ⟨by simp [Overrunning], .inl ⟨_, rfl⟩⟩
    -- An integer next to a double, on either side, is rounded if there is a double near it.
    · rename_i m y
      cases hround : Decimal.ofInt? m with
      | some x =>
        have hnear : ¬ Decimal.overflowBound ≤ m.natAbs := by
          simp [← Decimal.ofInt?_eq_none_iff, hround]
        exact .inl ⟨by simpa [Overrunning] using hnear, .inl ⟨_, rfl⟩⟩
      | none => exact .inr ⟨⟨m, y, Decimal.ofInt?_eq_none_iff.mp hround, .inl ⟨rfl, rfl⟩⟩, rfl⟩
    · rename_i x n
      cases hround : Decimal.ofInt? n with
      | some y =>
        have hnear : ¬ Decimal.overflowBound ≤ n.natAbs := by
          simp [← Decimal.ofInt?_eq_none_iff, hround]
        exact .inl ⟨by simpa [Overrunning] using hnear, .inl ⟨_, rfl⟩⟩
      | none => exact .inr ⟨⟨n, x, Decimal.ofInt?_eq_none_iff.mp hround, .inr ⟨rfl, rfl⟩⟩, rfl⟩
    · rename_i hleft hright
      refine .inl ⟨?_, asPromised_mismatch ..⟩
      rintro ⟨n, x, -, ⟨rfl, rfl⟩ | ⟨rfl, rfl⟩⟩
      · exact hleft n x rfl rfl
      · exact hright x n rfl rfl

/-- A sum is a double only if one of its operands is. -/
theorem float_of_add {x : Float} (h : add σ left right = .ok (.atom (.float x))) :
    (∃ y, left = .atom (.float y)) ∨ ∃ y, right = .atom (.float y) := by
  unfold add at h
  dsimp only at h
  split_ifs at h
  · split at h <;> cases h
  · split at h
    · cases h
    · exact .inl ⟨_, rfl⟩
    · exact .inr ⟨_, rfl⟩
    · exact .inl ⟨_, rfl⟩
    · cases h

/-! ## §3 Paths -/

/-- A segment that counts from the front: a name, or a place that is not negative. -/
def Segment.FromFront (segment : Segment) : Prop := ∀ n, segment.place? = some n → 0 ≤ n

/-- A segment leads somewhere, or the field is missing. -/
theorem follow_asPromised {walked : List Segment} {segment : Segment} (h : segment.FromFront)
    (current : Value) : AsPromised (follow σ walked segment current) := by
  unfold follow
  split
  · split
    · exact .inl ⟨_, rfl⟩
    · exact asPromised_missing ..
  · split
    · exact asPromised_missing ..
    · rename_i n hplace
      rw [if_pos (h n hplace)]
      split
      · exact .inl ⟨_, rfl⟩
      · exact asPromised_missing ..
  · exact asPromised_missing ..

/-- Segments lead somewhere, or a field is missing. -/
theorem walk_asPromised {walked segments : List Segment} (h : ∀ s ∈ segments, s.FromFront)
    (current : Value) : AsPromised (walk σ walked segments current) := by
  induction segments generalizing walked current with
  | nil => exact .inl ⟨current, rfl⟩
  | cons segment rest ih =>
    obtain ⟨hsegment, hrest⟩ := List.forall_mem_cons.mp h
    have hstep : AsPromised (follow σ (walked ++ [segment]) segment current) :=
      follow_asPromised hsegment current
    simp only [walk]
    rcases hstep with ⟨next, hnext⟩ | ⟨p, hp, hpromised⟩
    · rw [hnext]
      exact ih hrest next
    · rw [hp]
      exact .inr ⟨p, rfl, hpromised⟩

/-! ## §4 Trees -/

namespace Tree

/-- **A tree that can be read**: its paths count from the front, and everything in
it is an expression. -/
def Readable : Tree → Prop
  | .literal _ => True
  | .path segments => ∀ s ∈ segments, s.FromFront
  | .binary _ left right => left.Readable ∧ right.Readable
  | .alien _ => False

/-- **The evaluation of a tree overruns**: from the left to the right it comes to a
sum whose operands do. -/
def Overruns (σ : Store) (context : Value) : Tree → Prop
  | .binary _ left right =>
    left.Overruns σ context ∨ ∃ l, left.evaluate σ context = .ok l ∧
      (right.Overruns σ context ∨ ∃ r, right.evaluate σ context = .ok r ∧ Overrunning l r)
  | _ => False

/-- The operands of a tree that are no sums themselves, from the left to the right. -/
def leaves : Tree → List Tree
  | .binary _ left right => left.leaves ++ right.leaves
  | leaf => [leaf]

/-- **When the evaluation of a tree overruns** that can be read. -/
theorem evaluate_overrunsIf {tree : Tree} (h : tree.Readable) :
    OverrunsIf (tree.Overruns σ context) (tree.evaluate σ context) := by
  induction tree with
  | literal value => exact .inl ⟨id, .inl ⟨value, rfl⟩⟩
  | path segments => exact .inl ⟨id, walk_asPromised h context⟩
  -- The right operand is only evaluated if the left one has a value.
  | binary operator left right ihLeft ihRight =>
    exact (ihLeft h.1).bind fun l _ => (ihRight h.2).bind fun r _ => add_overrunsIf σ l r
  | alien typeName => exact absurd h id

/-- **Without doubles nothing overruns**: a tree none of whose operands is a double is none itself,
and its evaluation does not overrun. -/
theorem not_overruns_of_leaves {tree : Tree}
    (h : ∀ leaf ∈ tree.leaves, ∀ x : Float, leaf.evaluate σ context ≠ .ok (.atom (.float x))) :
    (∀ x : Float, tree.evaluate σ context ≠ .ok (.atom (.float x))) ∧
      ¬ tree.Overruns σ context := by
  induction tree with
  | literal _ | path _ | alien _ => exact ⟨h _ (List.mem_singleton_self _), id⟩
  | binary operator left right ihLeft ihRight =>
    obtain ⟨hleft, hleftNot⟩ := ihLeft fun leaf hleaf => h leaf (List.mem_append_left _ hleaf)
    obtain ⟨hright, hrightNot⟩ := ihRight fun leaf hleaf => h leaf (List.mem_append_right _ hleaf)
    refine ⟨fun x hx => ?_, ?_⟩
    · obtain ⟨l, hl, hx⟩ := bind_ok_iff.mp hx
      obtain ⟨r, hr, hadd⟩ := bind_ok_iff.mp hx
      rcases float_of_add hadd with ⟨y, rfl⟩ | ⟨y, rfl⟩
      · exact hleft y hl
      · exact hright y hr
    · rintro (hoverruns | ⟨l, hl, hoverruns | ⟨r, hr, n, x, -, ⟨-, rfl⟩ | ⟨rfl, -⟩⟩⟩)
      · exact hleftNot hoverruns
      · exact hrightNot hoverruns
      · exact hright x hr
      · exact hleft x hl

end Tree

/-! ## §5 What can be read -/

section

open Grammar

mutual

/-- The tree of a term can be read. -/
theorem readable_term : ∀ t : Term, t.tree.Readable
  | .literal _ => trivial
  | .path root _ fields => by
    rintro s hs n hplace
    rcases List.mem_cons.mp hs with rfl | hfield
    · cases hplace
    · obtain ⟨field, -, rfl⟩ := List.mem_map.mp hfield
      cases field with
      | name _ => cases hplace
      | index m =>
        obtain rfl := Option.some.inj hplace
        exact Int.natCast_nonneg m
  | .group e => readable_sum e

/-- The tree of a derivation can be read. -/
theorem readable_sum : ∀ e : Sum, e.tree.Readable
  | .mk first others => readable_added others (readable_term first)

/-- Adding terms to a tree that can be read gives such a tree. -/
theorem readable_added :
    ∀ (others : List Term) {left : Tree}, left.Readable → (treeOfAdded left others).Readable
  | [], _, hleft => hleft
  | t :: rest, _, hleft => readable_added rest ⟨hleft, readable_term t⟩

end

end

/-- **What is parsed can be read**. -/
theorem readable_of_parse {source : String} {e : Expression} (h : parse source = .ok e) :
    e.root.Readable := by
  unfold parse at h
  split at h
  · rename_i e' hread
    obtain rfl := Except.ok.inj h
    -- A source that can be read has tokens, and these make the tree of a derivation.
    obtain ⟨tokens, -, hread⟩ := bind_ok_iff.mp hread
    obtain ⟨tree, htree, hread⟩ := bind_ok_iff.mp hread
    obtain rfl := Except.ok.inj hread
    obtain ⟨d, -, rfl⟩ := derives_of_treeOf htree
    exact readable_sum d
  · cases h

/-! ## §6 Evaluation -/

/-- **When an evaluation fails as it is to**: an expression that was parsed has a value in a
context, or it fails since a field is not found or the operands of a sum have none, exactly if its
evaluation comes to no sum of a double and an integer beyond the largest double. If it comes to one,
it fails with that instead. It comes to none if no operand in it is a double. -/
theorem evaluate_asPromised_iff {source : String} {e : Expression}
    (h : parse source = .ok e) (σ : Store) (context : Value) :
    (AsPromised (e.evaluate σ context) ↔ ¬ e.root.Overruns σ context) ∧
    (e.root.Overruns σ context → ∃ p, e.evaluate σ context = .error p ∧
      p.raised = .broken "OverflowError" "int too large to convert to float") ∧
    ((∀ leaf ∈ e.root.leaves, ∀ x : Float, leaf.evaluate σ context ≠ .ok (.atom (.float x))) →
      ¬ e.root.Overruns σ context) := by
  have hends : OverrunsIf (e.root.Overruns σ context) (e.evaluate σ context) :=
    Tree.evaluate_overrunsIf (readable_of_parse h)
  exact ⟨hends.asPromised_iff, fun hoverruns => ⟨_, hends.eq_tooLarge hoverruns, rfl⟩,
    fun hleaves => (Tree.not_overruns_of_leaves hleaves).2⟩

/-- A context with the least integer beyond the largest double, and a double. -/
def farContext : Value :=
  .map (Entries.ofFields
    [("input",
      .map (Entries.ofFields [("n", .int Decimal.overflowBound), ("x", .atom (.float 1.5))]))])

/-- The sum of the two. -/
def farSum : Expression where
  source := "input.n + input.x"
  root := .binary "+" (.path [.name "input", .name "n"]) (.path [.name "input", .name "x"])

theorem parse_farSum : parse "input.n + input.x" = .ok farSum := by cbv

theorem isJson_farContext : farContext.IsJson := by
  have houter : ["input"].Nodup := by decide
  have hinner : ["n", "x"].Nodup := by decide
  apply Value.IsJson.map
  · exact houter
  · intro field hfield
    obtain rfl := List.mem_singleton.mp hfield
    apply Value.IsJson.map
    · exact hinner
    · intro field hfield
      rcases List.mem_pair.mp hfield with rfl | rfl
      · exact .int _
      · exact .float _

/-- The sum of the two overruns. -/
theorem overruns_farSum : farSum.root.Overruns .empty farContext :=
  .inr ⟨_, rfl, .inr ⟨_, rfl, Decimal.overflowBound, 1.5, Nat.le_refl _, .inl ⟨rfl, rfl⟩⟩⟩

/-- How the sum of the two ends. -/
theorem evaluate_farSum_asPromised_iff :
    parse "input.n + input.x" = .ok farSum ∧
    (AsPromised (farSum.evaluate .empty farContext) ↔ ¬ farSum.root.Overruns .empty farContext) ∧
    ∃ p, farSum.evaluate .empty farContext = .error p ∧
      p.raised = .broken "OverflowError" "int too large to convert to float" :=
  ⟨parse_farSum, (evaluate_asPromised_iff parse_farSum .empty farContext).1,
    (evaluate_asPromised_iff parse_farSum .empty farContext).2.1 overruns_farSum⟩

/-- **Evaluations do not always fail as they are to**: the sum of an integer beyond the largest
double and a double has no value, and is told neither as a field that is not found nor as
operands that have no sum. -/
theorem not_forall_evaluate_asPromised :
    ¬ ∀ (source : String) (e : Expression) (context : Value), parse source = .ok e →
    context.IsJson →
      AsPromised (e.evaluate .empty context) := by
  intro hall
  have hends : OverrunsIf (farSum.root.Overruns .empty farContext)
      (farSum.evaluate .empty farContext) :=
    Tree.evaluate_overrunsIf (readable_of_parse parse_farSum)
  exact hends.asPromised_iff.mp (hall _ _ _ parse_farSum isJson_farContext) overruns_farSum

end Expression

end Switchyard
