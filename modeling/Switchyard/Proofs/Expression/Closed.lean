import Switchyard.Expression.Parser
import Switchyard.Proofs.Value.Extension

/-!
# Evaluation in a store that grows

Data that only refers to cells that are there means the same in every store that extends the present
one. So an expression whose literals have no parts evaluates alike before and after containers are
added, and every expression that can be read is such.

Main statements: `evaluate_extends` and `atomic_of_parse`.
-/

namespace Switchyard

/-! ## §1 Closed stores -/

/-- **Data within bounds**: every address in it is less than `n`. -/
inductive Value.Within (n : Nat) : Value → Prop
  | atom (s : Scalar) : Within n (.atom s)
  | list {items : List Value} : (∀ v ∈ items, Within n v) → Within n (.list items)
  | tuple {items : List Value} : (∀ v ∈ items, Within n v) → Within n (.tuple items)
  | map {entries : List (Scalar × Value)} :
      (∀ entry ∈ entries, Within n entry.2) → Within n (.map entries)
  | shared {address : Nat} : address < n → Within n (.shared address)

/-- What a container holds is within bounds. -/
def Cell.Within (n : Nat) : Cell → Prop
  | .list items => ∀ v ∈ items, v.Within n
  | .map entries | .view entries => ∀ entry ∈ entries, entry.2.Within n

/-- What a value shows is within bounds. -/
def Shape.Within (n : Nat) : Shape → Prop
  | .scalar _ => True
  | .sequence items => ∀ v ∈ items, v.Within n
  | .mapping entries => ∀ entry ∈ entries, entry.2.Within n

/-- **A closed store**: its containers refer to its own cells only. -/
def Store.Closed (σ : Store) : Prop :=
  ∀ address cell, σ.cell? address = some cell → cell.Within σ.cells.size

namespace Store

variable {σ τ : Store} {v : Value}

/-- Data within bounds shows the same in a store that grew. -/
theorem Extends.shape_eq (h : σ.Extends τ) (hv : v.Within σ.cells.size) :
    τ.shape v = σ.shape v := by
  cases hv with
  | shared hlt =>
    obtain ⟨cell, hcell⟩ := cell?_of_lt_size hlt
    simp only [shape, hcell, h _ _ hcell]
  | atom _ | list _ | tuple _ | map _ => rfl

/-- What data within bounds shows in a closed store is within bounds. -/
theorem Closed.shape (hσ : σ.Closed) (hv : v.Within σ.cells.size) :
    (σ.shape v).Within σ.cells.size := by
  cases hv with
  | shared hlt =>
    obtain ⟨cell, hcell⟩ := cell?_of_lt_size hlt
    have hwithin := hσ _ _ hcell
    simp only [Store.shape, hcell]
    cases cell <;> exact hwithin
  | atom _ => trivial
  | list hitems | tuple hitems => exact hitems
  | map hentries => exact hentries

/-- Data within bounds is of the same kind in a store that grew. -/
theorem Extends.kindName_eq (h : σ.Extends τ) (hv : v.Within σ.cells.size) :
    v.kindName τ = v.kindName σ := by
  cases hv with
  | shared hlt =>
    obtain ⟨cell, hcell⟩ := cell?_of_lt_size hlt
    simp only [Value.kindName, Value.typeName, hcell, h _ _ hcell]
  | atom s => cases s <;> rfl
  | list _ | tuple _ | map _ => rfl

end Store

/-! ## §2 Expressions -/

namespace Expression

/-- A tree whose literals have no parts. -/
def Tree.Atomic : Tree → Prop
  | .literal value => ∃ s : Scalar, value = .atom s
  | .path _ | .alien _ => True
  | .binary _ left right => left.Atomic ∧ right.Atomic

variable {σ τ : Store} {context : Value}

/-- One segment leads to the same place in a store that grew, and to data within bounds. -/
theorem follow_extends {current : Value} (hσ : σ.Closed) (h : σ.Extends τ)
    (hcurrent : current.Within σ.cells.size) (walked : List Segment) (segment : Segment) :
    follow τ walked segment current = follow σ walked segment current ∧
      ∀ v, follow σ walked segment current = .ok v → v.Within σ.cells.size := by
  have hshape := hσ.shape hcurrent
  refine ⟨by rw [follow, follow, h.shape_eq hcurrent], fun v hv => ?_⟩
  unfold follow at hv
  split at hv
  · rename_i entries hentries
    -- The step leads to the value of an entry.
    rw [hentries] at hshape
    split at hv
    · rename_i w hfield
      obtain rfl := Except.ok.inj hv
      obtain ⟨entry, hentry, rfl⟩ := Option.map_eq_some_iff.mp hfield
      exact hshape entry (List.mem_of_find?_eq_some hentry)
    · cases hv
  · rename_i items hitems
    -- The step leads to an item, counted from the front or from the back.
    rw [hitems] at hshape
    have hmem : ∀ {i : Nat} {w : Value}, items[i]? = some w → w.Within σ.cells.size :=
      fun hw => hshape _ (List.mem_of_getElem? hw)
    split at hv
    · cases hv
    · rename_i n hplace
      split_ifs at hv with hfront hback
      · split at hv
        · rename_i w hitem
          obtain rfl := Except.ok.inj hv
          exact hmem hitem
        · cases hv
      · split at hv
        · rename_i w hitem
          obtain rfl := Except.ok.inj hv
          exact hmem hitem
        · cases hv
  · cases hv

/-- Segments lead to the same place in a store that grew, and to data within bounds. -/
theorem walk_extends {walked segments : List Segment} {current : Value} (hσ : σ.Closed)
    (h : σ.Extends τ) (hcurrent : current.Within σ.cells.size) :
    walk τ walked segments current = walk σ walked segments current ∧
      ∀ v, walk σ walked segments current = .ok v → v.Within σ.cells.size := by
  induction segments generalizing walked current with
  | nil =>
    refine ⟨rfl, fun v hv => ?_⟩
    obtain rfl := Except.ok.inj hv
    exact hcurrent
  | cons segment rest ih =>
    obtain ⟨hsame, hwithin⟩ := follow_extends hσ h hcurrent (walked ++ [segment]) segment
    simp only [walk, hsame]
    cases hfollow : follow σ (walked ++ [segment]) segment current with
    | error p => exact ⟨rfl, fun v hv => by cases hv⟩
    | ok next => exact ih (hwithin next hfollow)

/-- Sums have no parts. -/
theorem add_atom {left right v : Value} (hv : add σ left right = .ok v) :
    ∃ s : Scalar, v = .atom s := by
  unfold add at hv
  dsimp only at hv
  -- Texts are put together, numbers are added up, and nothing else has a sum.
  split_ifs at hv
  · split at hv
    · exact ⟨_, (Except.ok.inj hv).symm⟩
    · cases hv
  · split at hv
    · exact ⟨_, (Except.ok.inj hv).symm⟩
    · exact ⟨_, (Except.ok.inj hv).symm⟩
    · split at hv
      · exact ⟨_, (Except.ok.inj hv).symm⟩
      · cases hv
    · split at hv
      · exact ⟨_, (Except.ok.inj hv).symm⟩
      · cases hv
    · cases hv

/-- Two data within bounds add up to the same in a store that grew. -/
theorem add_extends {left right : Value} (h : σ.Extends τ) (hleft : left.Within σ.cells.size)
    (hright : right.Within σ.cells.size) : add τ left right = add σ left right := by
  unfold add
  simp only [h.kindName_eq hleft, h.kindName_eq hright]

/-- A tree has the same value in a store that grew, and one within bounds. -/
theorem Tree.evaluate_extends {tree : Tree} (htree : tree.Atomic) (hσ : σ.Closed) (h : σ.Extends τ)
    (hcontext : context.Within σ.cells.size) :
    tree.evaluate τ context = tree.evaluate σ context ∧
      ∀ v, tree.evaluate σ context = .ok v → v.Within σ.cells.size := by
  induction tree with
  | literal value =>
    obtain ⟨s, rfl⟩ := htree
    refine ⟨rfl, fun v hv => ?_⟩
    obtain rfl := Except.ok.inj hv
    exact .atom s
  | path segments => exact walk_extends hσ h hcontext
  | binary operator left right ihLeft ihRight =>
    obtain ⟨hleft, hleftWithin⟩ := ihLeft htree.1
    obtain ⟨hright, hrightWithin⟩ := ihRight htree.2
    simp only [Tree.evaluate, hleft, hright]
    cases hl : left.evaluate σ context with
    | error p => exact ⟨rfl, fun v hv => by cases hv⟩
    | ok l =>
      cases hr : right.evaluate σ context with
      | error p => exact ⟨rfl, fun v hv => by cases hv⟩
      | ok r =>
        -- Both sides are within bounds, so their kinds are what they were.
        refine ⟨add_extends h (hleftWithin l hl) (hrightWithin r hr), fun v hv => ?_⟩
        obtain ⟨s, rfl⟩ := add_atom hv
        exact .atom s
  | alien typeName => exact ⟨rfl, fun v hv => by cases hv⟩

end Expression

/-- **Evaluation in a store that grew** gives what it gave before. -/
theorem Expression.evaluate_extends {e : Expression} {σ τ : Store} {context : Value}
    (he : e.root.Atomic) (hσ : σ.Closed) (h : σ.Extends τ)
    (hcontext : context.Within σ.cells.size) :
    e.evaluate τ context = e.evaluate σ context :=
  (Tree.evaluate_extends he hσ h hcontext).1

/-! ## §3 What can be read -/

namespace Expression

/-- The sum to the left of an operand has only literals without parts. -/
def Pending.Atomic (pending : Pending) : Prop := ∀ tree, pending = some tree → tree.Atomic

theorem atomic_join {pending : Pending} {tree : Tree} (hpending : pending.Atomic)
    (htree : tree.Atomic) : (join pending tree).Atomic := by
  cases pending with
  | none => exact htree
  | some left => exact ⟨hpending left rfl, htree⟩

/-- Everything that has been read so far has only literals without parts. -/
def Reading.Atomic : Reading → Prop
  | .awaiting outer left | .within outer left _ | .afterDot outer left _ =>
    (∀ p ∈ outer, p.Atomic) ∧ left.Atomic
  | .complete outer tree => (∀ p ∈ outer, p.Atomic) ∧ tree.Atomic

namespace Reading

theorem atomic_start : start.Atomic := ⟨by simp, fun _ hnone => by cases hnone⟩

theorem atomic_pathTree (segments : List Segment) : (pathTree segments).Atomic := trivial

theorem atomic_operand {outer : List Pending} {left : Pending} {t : Token} {reading : Reading}
    (houter : ∀ p ∈ outer, p.Atomic) (hleft : left.Atomic)
    (h : operand outer left t = .ok reading) :
    reading.Atomic := by
  unfold operand at h
  split at h
  · obtain rfl := Except.ok.inj h
    exact ⟨houter, atomic_join hleft ⟨_, rfl⟩⟩
  · obtain rfl := Except.ok.inj h
    exact ⟨houter, atomic_join hleft ⟨_, rfl⟩⟩
  · obtain rfl := Except.ok.inj h
    exact ⟨houter, atomic_join hleft ⟨_, rfl⟩⟩
  -- A keyword is a literal; any other name begins a path.
  · split at h
    · obtain rfl := Except.ok.inj h
      exact ⟨houter, atomic_join hleft ⟨_, rfl⟩⟩
    · obtain rfl := Except.ok.inj h
      exact ⟨houter, hleft⟩
  · obtain rfl := Except.ok.inj h
    -- A parenthesis opens: the sum to its left waits outside and a new one begins.
    refine ⟨?_, fun _ hnone => by cases hnone⟩
    intro p hp
    rcases List.mem_cons.mp hp with rfl | hmem
    · exact hleft
    · exact houter p hmem
  · cases h

theorem atomic_continuation {outer : List Pending} {tree : Tree} {t : Token} {reading : Reading}
    (houter : ∀ p ∈ outer, p.Atomic) (htree : tree.Atomic)
    (h : continuation outer tree t = .ok reading) :
    reading.Atomic := by
  unfold continuation at h
  split at h
  · obtain rfl := Except.ok.inj h
    exact ⟨houter, fun _ hsome => Option.some.inj hsome ▸ htree⟩
  · obtain rfl := Except.ok.inj h
    -- A parenthesis closes: what is in it joins the sum that waited outside.
    exact ⟨fun p hp => houter p (List.mem_cons_of_mem _ hp),
      atomic_join (houter _ (List.mem_cons_self ..)) htree⟩
  · cases h
  · cases h

/-- Reading a token keeps literals without parts. -/
theorem atomic_step {reading reading' : Reading} {t : Token} (hreading : reading.Atomic)
    (h : step reading t = .ok reading') : reading'.Atomic := by
  cases reading with
  | awaiting outer left => exact atomic_operand hreading.1 hreading.2 h
  | complete outer tree => exact atomic_continuation hreading.1 hreading.2 h
  | within outer left segments =>
    simp only [step] at h
    split at h
    · obtain rfl := Except.ok.inj h
      exact hreading
    · exact atomic_continuation hreading.1 (atomic_join hreading.2 (atomic_pathTree segments)) h
  | afterDot outer left segments =>
    simp only [step] at h
    split at h
    · obtain rfl := Except.ok.inj h
      exact hreading
    · obtain rfl := Except.ok.inj h
      exact hreading
    · cases h

/-- Reading tokens keeps literals without parts. -/
theorem atomic_foldlM {tokens : List Token} {reading reading' : Reading} (hreading : reading.Atomic)
    (h : tokens.foldlM step reading = .ok reading') : reading'.Atomic := by
  induction tokens generalizing reading with
  | nil =>
    obtain rfl := Except.ok.inj h
    exact hreading
  | cons t rest ih =>
    obtain ⟨next, hstep, hrest⟩ := bind_ok_iff.mp h
    exact ih (atomic_step hreading hstep) hrest

theorem atomic_finish {position : Nat} {reading : Reading} {tree : Tree} (hreading : reading.Atomic)
    (h : finish position reading = .ok tree) : tree.Atomic := by
  unfold finish at h
  split at h
  · cases h
  · obtain rfl := Except.ok.inj h
    exact hreading.2
  · obtain rfl := Except.ok.inj h
    exact atomic_join hreading.2 (atomic_pathTree _)
  all_goals cases h

end Reading

/-- **What can be read** has only literals without parts. -/
theorem atomic_of_parse {source : String} {e : Expression} (h : parse source = .ok e) :
    e.root.Atomic := by
  unfold parse at h
  split at h
  · rename_i e' hread
    obtain rfl := Except.ok.inj h
    -- A source that can be read has tokens, and these make a tree.
    obtain ⟨tokens, -, hread⟩ := bind_ok_iff.mp hread
    obtain ⟨tree, htree, hread⟩ := bind_ok_iff.mp hread
    obtain rfl := Except.ok.inj hread
    unfold treeOf at htree
    split_ifs at htree with hempty
    obtain ⟨reading, hfold, hfinish⟩ := bind_ok_iff.mp htree
    exact Reading.atomic_finish (Reading.atomic_foldlM Reading.atomic_start hfold) hfinish
  · cases h

end Expression

end Switchyard
