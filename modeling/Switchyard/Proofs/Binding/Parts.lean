import Switchyard.Proofs.Value.Extension

/-!
# Parts in the order of evaluation

To resolve bindings is to evaluate the parts of their expressions one after another: bindings in the
order of the list or map that holds them, and of a sum first the left operand, then the right one,
then the sum itself. The first part that fails decides what the whole fails with.

Main statements: resolving fails with the first part that fails (`resolve_follows`), so it fails if
some part does in any case, with that part or with one before it (`Follows.exists_error`).
-/

namespace Switchyard

namespace Expression

/-! ## §1 Parts of trees -/

/-- The parts of a tree in the order in which their values are known: operands from left to
right, and the tree last. -/
def Tree.parts : Tree → List Tree
  | .literal value => [.literal value]
  | .path segments => [.path segments]
  | .binary operator left right => parts left ++ parts right ++ [.binary operator left right]
  | .alien typeName => [.alien typeName]

/-- A part has a value in a store that grew from the given one. -/
def Tree.Succeeds (σ : Store) (context : Value) (part : Tree) : Prop :=
  ∃ τ v, σ.Extends τ ∧ part.evaluate τ context = .ok v

/-- A part fails with a problem in a store that grew from the given one. -/
def Tree.Fails (σ : Store) (context : Value) (problem : EvalProblem) (part : Tree) : Prop :=
  ∃ τ, σ.Extends τ ∧ part.evaluate τ context = .error problem

/-- **What a computation comes to that evaluates parts** one after another: it has a result if all
of them succeed, and else it fails with the first one that fails. -/
def Follows {α : Type} (σ : Store) (context : Value) (parts : List Tree) :
    Except EvalProblem α → Prop
  | .ok _ => ∀ part ∈ parts, part.Succeeds σ context
  | .error problem => ∃ before part after, parts = before ++ part :: after ∧
      (∀ earlier ∈ before, earlier.Succeeds σ context) ∧ part.Fails σ context problem

namespace Follows

variable {α β : Type} {σ τ : Store} {context : Value} {parts more : List Tree}
  {x : Except EvalProblem α} {f : α → Except EvalProblem β}

theorem of_ok (a : α) : Follows σ context [] (.ok a : Except EvalProblem α) := by
  intro part hpart
  cases hpart

/-- A part is evaluated by evaluating it. -/
theorem of_part (part : Tree) : Follows σ context [part] (part.evaluate σ context) := by
  cases h : part.evaluate σ context with
  | ok v =>
    intro only honly
    obtain rfl := List.mem_singleton.mp honly
    exact ⟨σ, v, .refl σ, h⟩
  | error problem => exact ⟨[], part, [], rfl, by simp, σ, .refl σ, h⟩

/-- Parts that are evaluated in a store that grew. -/
theorem of_extends (hgrown : σ.Extends τ) (h : Follows τ context parts x) :
    Follows σ context parts x := by
  have hsucceeds : ∀ part : Tree, part.Succeeds τ context → part.Succeeds σ context := by
    intro part hpart
    obtain ⟨ρ, v, hρ, hv⟩ := hpart
    exact ⟨ρ, v, hgrown.trans hρ, hv⟩
  cases x with
  | ok a => exact fun part hpart => hsucceeds part (h part hpart)
  | error problem =>
    obtain ⟨before, part, after, hparts, hbefore, ρ, hρ, hfails⟩ := h
    exact ⟨before, part, after, hparts, fun earlier hearlier =>
      hsucceeds earlier (hbefore earlier hearlier), ρ, hgrown.trans hρ, hfails⟩

/-- Computations in a row evaluate the parts of the first one and then those of the second one. -/
theorem bind (hx : Follows σ context parts x) (hf : ∀ a, x = .ok a → Follows σ context more (f a)) :
    Follows σ context (parts ++ more) (x >>= f) := by
  cases x with
  | error problem =>
    -- The first one fails, and nothing more is evaluated.
    obtain ⟨before, part, after, rfl, hbefore, hfails⟩ := hx
    exact ⟨before, part, after ++ more, by simp, hbefore, hfails⟩
  | ok a =>
    have hrest := hf a rfl
    show Follows σ context (parts ++ more) (f a)
    cases hresult : f a with
    | ok b =>
      rw [hresult] at hrest
      intro part hpart
      rcases List.mem_append.mp hpart with hfirst | hsecond
      · exact hx part hfirst
      · exact hrest part hsecond
    | error problem =>
      rw [hresult] at hrest
      obtain ⟨before, part, after, rfl, hbefore, hfails⟩ := hrest
      refine ⟨parts ++ before, part, after, by simp, ?_, hfails⟩
      intro earlier hearlier
      rcases List.mem_append.mp hearlier with hfirst | hsecond
      · exact hx earlier hfirst
      · exact hbefore earlier hsecond

/-- What is made of the result does not matter. -/
theorem map (g : α → β) (h : Follows σ context parts x) :
    Follows σ context parts (x >>= fun a => .ok (g a)) := by
  rw [← List.append_nil parts]
  exact h.bind fun a _ => of_ok (g a)

/-- **A part that fails in any case**: then the whole fails, with that part or
with one before it. -/
theorem exists_error {before after : List Tree} {part : Tree} {problem : EvalProblem}
    (h : Follows σ context parts x) (hparts : parts = before ++ part :: after)
    (hfails : ∀ τ, σ.Extends τ → part.evaluate τ context = .error problem) :
    ∃ p, x = .error p ∧ (p = problem ∨ ∃ earlier ∈ before, earlier.Fails σ context p) := by
  have hnever : ¬ part.Succeeds σ context := by
    intro hsucceeds
    obtain ⟨τ, v, hτ, hv⟩ := hsucceeds
    rw [hfails τ hτ] at hv
    cases hv
  have hsame : ∀ {p : EvalProblem}, part.Fails σ context p → p = problem := by
    intro p hpart
    obtain ⟨τ, hτ, hp⟩ := hpart
    rw [hfails τ hτ] at hp
    exact (Except.error.inj hp).symm
  cases x with
  | ok a => exact absurd (h part (by simp [hparts])) hnever
  | error p =>
    obtain ⟨before', part', after', heq, hbefore', hfirst⟩ := h
    refine ⟨p, rfl, ?_⟩
    rw [hparts] at heq
    -- The first part that fails comes before the given one, or it is that
    -- one; it cannot come later.
    rcases List.append_eq_append_iff.mp heq with ⟨between, rfl, hsplit⟩ | ⟨between, rfl, hsplit⟩
    · cases between with
      | nil =>
        obtain ⟨rfl, -⟩ := List.cons.inj hsplit
        exact .inl (hsame hfirst)
      | cons head tail =>
        obtain ⟨rfl, -⟩ := List.cons.inj hsplit
        exact absurd (hbefore' part (by simp)) hnever
    · cases between with
      | nil =>
        obtain ⟨rfl, -⟩ := List.cons.inj hsplit
        exact .inl (hsame hfirst)
      | cons head tail =>
        obtain ⟨rfl, -⟩ := List.cons.inj hsplit
        exact .inr ⟨part', by simp, hfirst⟩

end Follows

/-- **Evaluating** a tree evaluates its parts. -/
theorem Tree.evaluate_follows (σ : Store) (context : Value) (tree : Tree) :
    Follows σ context tree.parts (tree.evaluate σ context) := by
  induction tree with
  | literal value => exact .of_part (.literal value)
  | path segments => exact .of_part (.path segments)
  | alien typeName => exact .of_part (.alien typeName)
  | binary operator left right ihl ihr =>
    rw [Tree.parts, List.append_assoc]
    refine ihl.bind fun l hl => ihr.bind fun r hr => ?_
    -- Both operands have values, so the sum is all that is left of the tree.
    have hsum : (Tree.binary operator left right).evaluate σ context = add σ l r := by
      rw [Tree.evaluate, hl, hr]
      rfl
    rw [← hsum]
    exact .of_part _

end Expression

/-! ## §2 Parts of bindings -/

namespace Binding

open Expression (Tree Follows)

mutual

/-- The parts of the expressions in a binding, in the order in which they are evaluated. -/
def parts : Binding → List Tree
  | .literal _ => []
  | .expression e => e.root.parts
  | .list items => partsOfItems items
  | .map entries => partsOfEntries entries

def partsOfItems : List Binding → List Tree
  | [] => []
  | b :: rest => parts b ++ partsOfItems rest

def partsOfEntries : List (String × Binding) → List Tree
  | [] => []
  | (_, b) :: rest => parts b ++ partsOfEntries rest

end

mutual

/-- **Resolving** a binding evaluates its parts. -/
theorem resolve_follows (context : Value) : ∀ (b : Binding) (σ : Store),
    Follows σ context b.parts (resolve context b σ)
  | .literal value, σ => .of_ok (σ.layOut value)
  | .expression e, σ => (e.root.evaluate_follows σ context).map fun v => (v, σ)
  | .list items, σ =>
    (resolveItems_follows context items σ).map fun r : List Value × Store => r.2.alloc (.list r.1)
  | .map entries, σ =>
    (resolveEntries_follows context entries σ).map fun r : Entries × Store =>
      r.2.alloc (.map (.ofPairs r.1))

theorem resolveItems_follows (context : Value) : ∀ (items : List Binding) (σ : Store),
    Follows σ context (partsOfItems items) (resolveItems context items σ)
  | [], σ => .of_ok ([], σ)
  | b :: rest, σ => by
    refine (resolve_follows context b σ).bind fun first hfirst => ?_
    -- The others are resolved in the store that the first one leaves.
    refine .of_extends (resolve_extends hfirst) ?_
    exact (resolveItems_follows context rest first.2).map fun r => (first.1 :: r.1, r.2)

theorem resolveEntries_follows (context : Value) :
    ∀ (entries : List (String × Binding)) (σ : Store),
    Follows σ context (partsOfEntries entries) (resolveEntries context entries σ)
  | [], σ => .of_ok ([], σ)
  | (k, b) :: rest, σ => by
    refine (resolve_follows context b σ).bind fun first hfirst => ?_
    refine .of_extends (resolve_extends hfirst) ?_
    exact (resolveEntries_follows context rest first.2).map fun r =>
      ((.text k, first.1) :: r.1, r.2)

end

end Binding

end Switchyard
