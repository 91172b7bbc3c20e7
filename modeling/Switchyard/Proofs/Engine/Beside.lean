import Switchyard.Proofs.Binding.Agreement
import Switchyard.Proofs.Engine.Backward
import Switchyard.Proofs.Engine.Stable
import Switchyard.Proofs.Expression.Names

/-!
# Two runs side by side

Two runs of one invocation have run the same steps, and the second one maybe one more, of some name.
What the steps answered is the same data in both. Then expressions that do not name that step see no
difference, except by the view of the steps, which is the one container that they do not share.

Main statements: bindings that avoid the step resolve to the same in both runs
(`Beside.resolve_agrees`), and the runs stay side by side while stores grow, units leave alone what
their scope shows, and outputs are recorded (`Beside.record`, `Beside.insert`).
-/

namespace Switchyard

open Expression (Tree Segment RefersTo)
open Store (Pairing GrowAlike)

/-! ## §1 Expressions that avoid a step -/

namespace Expression

variable {name : String} {first : Segment} {rest : List Segment} {tree : Tree}

/-- A path names a step by its first part, or by its second part behind the root of the steps. -/
theorem refersTo_cons_iff : RefersTo name (first :: rest) ↔
    first.key = name ∨ first.key = Scope.stepsRoot ∧ ∃ second ∈ rest.head?, second.key = name := by
  constructor
  · rintro (hkey | ⟨hroot, hkey⟩)
    · exact .inl hkey
    · exact .inr ⟨hroot, _, rfl, hkey⟩
  · rintro (hkey | ⟨hroot, second, hsecond, hkey⟩)
    · exact .shorthand hkey
    · obtain ⟨more, rfl⟩ := List.head?_eq_some_iff.mp hsecond
      exact .longhand hroot hkey

instance : (segments : List Segment) → Decidable (RefersTo name segments)
  | [] => isFalse nofun
  | _ :: _ => decidable_of_iff _ refersTo_cons_iff.symm

/-- The paths of a tree, from left to right. -/
def Tree.paths : Tree → List (List Segment)
  | .path segments => [segments]
  | .binary _ left right => left.paths ++ right.paths
  | .literal _ | .alien _ => []

/-- None of the paths of a tree names the step; no path is empty, and the
literals are plain data. -/
def Tree.Avoids (name : String) : Tree → Prop
  | .literal value => value.Within 0
  | .path segments => segments ≠ [] ∧ ¬ RefersTo name segments
  | .binary _ left right => left.Avoids name ∧ right.Avoids name
  | .alien _ => True

/-- A tree that is the bare path of the steps. -/
def Tree.IsBare : Tree → Prop
  | .path [segment] => segment.key = Scope.stepsRoot
  | _ => False

instance : (tree : Tree) → Decidable tree.IsBare
  | .path [segment] => inferInstanceAs (Decidable (segment.key = Scope.stepsRoot))
  | .path [] | .path (_ :: _ :: _) | .literal _ | .binary _ _ _ | .alien _ =>
    inferInstanceAs (Decidable False)

theorem Tree.isBare_path_iff {segments : List Segment} :
    (Tree.path segments).IsBare ↔ ∃ segment, segments = [segment] ∧
      segment.key = Scope.stepsRoot := by
  match segments with
  | [] | _ :: _ :: _ => simp [Tree.IsBare]
  | [segment] => simp [Tree.IsBare]

/-- A parsed tree avoids a step if none of its paths names it. -/
theorem Tree.Parsed.avoids (h : tree.Parsed)
    (hpaths : ∀ segments ∈ tree.paths, ¬ RefersTo name segments) :
    tree.Avoids name := by
  induction h with
  | literal l => cases l <;> exact .atom _
  | path _ _ _ => exact ⟨List.cons_ne_nil _ _, hpaths _ (List.mem_singleton_self _)⟩
  | sum _ _ ihl ihr =>
    exact ⟨ihl fun segments hmem => hpaths segments (List.mem_append_left _ hmem),
      ihr fun segments hmem => hpaths segments (List.mem_append_right _ hmem)⟩

end Expression

/-- **An expression that avoids a step**: none of its paths names the step, and it is not the
bare path of the steps. -/
structure Expression.Avoids (name : String) (e : Expression) : Prop where
  paths : e.root.Avoids name
  notBare : ¬ e.root.IsBare

/-- **What was parsed** avoids a step if none of its paths names it, and it is not the
bare path of the steps. -/
theorem Expression.avoids_of_parse {name source : String} {e : Expression}
    (h : parse source = .ok e) (hpaths : ∀ segments ∈ e.root.paths, ¬ RefersTo name segments)
    (hbare : ¬ e.root.IsBare) : e.Avoids name :=
  ⟨(parsed_of_parse h).avoids hpaths, hbare⟩

/-- **A step that avoids another**: its bindings are plain data and expressions that
avoid the other step. -/
def Step.Avoids (name : String) (step : Step) : Prop :=
  (Binding.map step.bindings).MadeOf (Expression.Avoids name)

/-- A step whose only binding is an expression avoids what that avoids. -/
theorem Step.avoids_of_expression {name key : String} {step : Step} {e : Expression}
    (hbindings : step.bindings = [(key, .expression e)]) (he : e.Avoids name) :
    step.Avoids name := by
  rw [Step.Avoids, hbindings]
  exact .map (List.forall_mem_singleton.mpr (.expression he))

/-! ## §2 Side by side -/

/-- Records of one step in two runs: the outputs are the same data, and the views that
show them are paired. -/
structure StepRecord.Matches (r : Nat → Nat → Prop) (x y : StepRecord) : Prop where
  name : x.name = y.name
  entry : r x.entry y.entry
  output : x.output.Matches r y.output

/-- **Two runs side by side**: the views of both are up to date, the input is the same data in both,
and so are the outputs of the steps, but for those of the given name, which only the second run has.
None of this leads to the view of the steps. -/
structure Beside (name : String) (steps : Nat) (input : Value)
    (done done' : List StepRecord) (σ τ : Store) (r : Nat → Nat → Prop) : Prop where
  shown : StepRecord.Shown steps done σ
  shown' : StepRecord.Shown steps done' τ
  pairing : Pairing σ τ r
  apart : ∀ {a b}, r a b → a ≠ steps ∧ b ≠ steps
  input : input.Matches r input
  answers : List.Forall₂ (StepRecord.Matches r) done (done'.filter (·.name != name))

namespace Entries

/-- Leaving out the fields of another name does not matter to a look-up. -/
theorem field?_filter {key name : String} (hne : key ≠ name) (fields : List (String × Value)) :
    (ofFields (fields.filter (·.1 != name))).field? key = (ofFields fields).field? key := by
  induction fields with
  | nil => rfl
  | cons field rest ih =>
    rw [List.filter_cons, field?_ofFields_cons]
    by_cases hname : field.1 = name
    · rw [if_neg (by simp [hname]), ih, if_neg (hname ▸ hne.symm)]
    · rw [if_pos (by simpa using hname), field?_ofFields_cons, ih]

end Entries

namespace StepRecord

variable {invocation : Invocation} {steps : Nat} {done : List StepRecord} {σ τ : Store}
  {key name : String}

/-- Under the name of a root there is that root, under any other name an output. -/
theorem field?_roots :
    (roots invocation steps done).field? key =
      if Scope.inputRoot = key then some invocation.input
      else if Scope.stepsRoot = key then some (.shared steps)
      else (Entries.ofFields (outputs done)).field? key := by
  rw [roots, Entries.field?_ofFields_cons, Entries.field?_ofFields_cons]

/-- What a scope shows leads to the views of the steps that ran. -/
theorem Shown.leads_entry (h : Shown steps done σ) {x : StepRecord} (hx : x ∈ done) :
    σ.Leads (scope invocation steps done).context x.entry := by
  have hheld : Value.shared x.entry ∈ (Cell.view (shownSteps done)).values :=
    List.mem_map_of_mem (List.mem_map_of_mem (List.mem_map_of_mem hx))
  exact .part Engine.mem_roots_steps (.held h.all hheld (.here _))

/-- A unit that leaves alone what a scope shows leaves the views up to date. -/
theorem Shown.of_sameFrom (h : Shown steps done σ)
    (hsame : σ.SameFrom (scope invocation steps done).context τ) :
    Shown steps done τ where
  all := hsame _ _ (.part Engine.mem_roots_steps (.here _)) h.all
  each x hx := hsame _ _ (h.leads_entry hx) (h.each x hx)
  apart := h.apart

end StepRecord

namespace Beside

open StepRecord (Shown outputs roots scope shownSteps)

variable {invocation : Invocation} {name : String} {steps : Nat} {input : Value}
  {done done' : List StepRecord} {σ σ' τ τ' : Store} {r r' : Nat → Nat → Prop} {x y : StepRecord}

/-- Two runs of one invocation begin side by side. -/
theorem start {ρ : Store} (hρ : ρ.Closed) (hinput : input.Within ρ.cells.size) :
    Beside name ρ.cells.size input [] [] (ρ.alloc (.view [])).2 (ρ.alloc (.view [])).2
      fun a b => a = b ∧ a < ρ.cells.size where
  shown := StepRecord.shown_start ρ
  shown' := StepRecord.shown_start ρ
  pairing := hρ.pairing (Store.extends_alloc ρ _) (Store.extends_alloc ρ _)
  apart := by
    rintro a b ⟨rfl, hlt⟩
    exact ⟨Nat.ne_of_lt hlt, Nat.ne_of_lt hlt⟩
  input := hinput.matches_self fun a hlt => ⟨rfl, hlt⟩
  answers := .nil

/-- New containers are not the views of the steps. -/
theorem ne_of_fresh (h : Beside name steps input done done' σ τ r) {a b : Nat}
    (hab : r a b ∨ σ.cells.size ≤ a ∧ τ.cells.size ≤ b) : a ≠ steps ∧ b ≠ steps := by
  have hlt := Store.lt_size_of_cell? h.shown.all
  have hlt' := Store.lt_size_of_cell? h.shown'.all
  rcases hab with hab | ⟨hle, hle'⟩
  · exact h.apart hab
  · omega

/-- **Runs stay side by side** while their stores grow alike. -/
theorem of_grown (h : Beside name steps input done done' σ τ r)
    (hgrown : GrowAlike σ τ r σ' τ' r') : Beside name steps input done done' σ' τ' r' where
  shown := h.shown.of_keepsViews hgrown.first.keepsViews
  shown' := h.shown'.of_keepsViews hgrown.second.keepsViews
  pairing := hgrown.pairing
  apart hab := h.ne_of_fresh (hgrown.fresh hab)
  input := hgrown.matches_mono h.input
  answers :=
    h.answers.imp fun _ _ hxy => ⟨hxy.name, hgrown.keeps hxy.entry, hgrown.matches_mono hxy.output⟩

/-- **Runs stay side by side** while units leave alone what their scopes show, and hand out only
that or new containers. -/
theorem of_replied (h : Beside name steps invocation.input done done' σ τ r)
    (hσ : σ.SameFrom (scope invocation steps done).context σ')
    (hτ : τ.SameFrom (scope invocation steps done').context τ') (hpairing : Pairing σ' τ' r')
    (hfresh : ∀ {a b}, r' a b → r a b ∨ σ.cells.size ≤ a ∧ τ.cells.size ≤ b) :
    Beside name steps invocation.input done done' σ' τ' fun a b => r' a b ∨
      r a b ∧ σ.Leads (scope invocation steps done).context a ∧
        τ.Leads (scope invocation steps done').context b where
  shown := h.shown.of_sameFrom hσ
  shown' := h.shown'.of_sameFrom hτ
  pairing := h.pairing.merge hpairing hσ hτ hfresh
  apart := by
    rintro a b (hab | ⟨hab, -⟩)
    · exact h.ne_of_fresh (hfresh hab)
    · exact h.apart hab
  input := by
    refine h.input.restrict (σ := σ) (τ := τ) fun a b ha hb hab => .inr ⟨hab, ?_, ?_⟩
    · exact .part (List.mem_cons_self ..) ha
    · exact .part (List.mem_cons_self ..) hb
  answers := by
    refine forall₂_of_mem h.answers fun x hx y hy hxy => ?_
    have hy' := (List.mem_filter.mp hy).1
    refine ⟨hxy.name, .inr ⟨hxy.entry, h.shown.leads_entry hx, h.shown'.leads_entry hy'⟩, ?_⟩
    refine hxy.output.restrict (σ := σ) (τ := τ) fun a b ha hb hab => .inr ⟨hab, ?_, ?_⟩
    · exact .part (Engine.mem_roots_of_output (List.mem_map_of_mem hx)) ha
    · exact .part (Engine.mem_roots_of_output (List.mem_map_of_mem hy')) hb

/-- Runs stay side by side while a unit of the second one leaves alone what its scope shows. -/
theorem of_alone {ρ : Store} (h : Beside name steps invocation.input done done' σ τ r)
    (hgrown : τ.Extends ρ) (hspares : ρ.SameFrom (scope invocation steps done').context τ') :
    ∃ r', Beside name steps invocation.input done done' σ τ' r' := by
  have hbeside : Beside name steps invocation.input done done' σ ρ r :=
    { h with
      shown' := h.shown'.of_keepsViews hgrown.keepsViews
      pairing := h.pairing.of_kept (fun _ hcell => hcell) fun _ hcell => hgrown _ _ hcell }
  exact ⟨_, hbeside.of_replied (fun _ _ _ hcell => hcell) hspares .none False.elim⟩

/-- **Recording** the output of one step in both runs keeps them side by side. -/
theorem record (h : Beside name steps input done done' σ τ r) {key : String} {v w : Value}
    (hkey : key ≠ name) (hvw : v.Matches r w)
    (hshown : Shown steps (done ++ [⟨key, v, σ.cells.size⟩]) σ')
    (hshown' : Shown steps (done' ++ [⟨key, w, τ.cells.size⟩]) τ')
    (hσ : (σ.alloc (.view (Entries.ofFields [("output", v)]))).2.ExtendsBut steps σ')
    (hτ : (τ.alloc (.view (Entries.ofFields [("output", w)]))).2.ExtendsBut steps τ') :
    Beside name steps input (done ++ [⟨key, v, σ.cells.size⟩])
      (done' ++ [⟨key, w, τ.cells.size⟩]) σ' τ'
      fun a b => r a b ∨ a = σ.cells.size ∧ b = τ.cells.size := by
  -- The views that show the output are new and hold the same.
  have hgrown := GrowAlike.alloc h.pairing (c := .view (Entries.ofFields [("output", v)]))
    (d := .view (Entries.ofFields [("output", w)])) (.view (.cons ⟨rfl, hvw⟩ .nil))
  have hbeside := h.of_grown hgrown
  exact
    { shown := hshown
      shown' := hshown'
      pairing := hbeside.pairing.of_kept (fun hab => hσ _ _ (hbeside.apart hab).1) fun hab =>
        hτ _ _ (hbeside.apart hab).2
      apart := hbeside.apart
      input := hbeside.input
      answers := by
        rw [List.filter_append, List.filter_cons_of_pos (by simpa using hkey), List.filter_nil]
        exact List.rel_append hbeside.answers
          (.cons ⟨rfl, .inr ⟨rfl, rfl⟩, hgrown.matches_mono hvw⟩ .nil) }

/-- **Recording** the output of the step that only the second run has keeps
the runs side by side. -/
theorem insert (h : Beside name steps input done done' σ τ r)
    (hshown' : Shown steps (done' ++ [y]) τ') (hτ : τ.ExtendsBut steps τ') (hname : y.name = name) :
    Beside name steps input done (done' ++ [y]) σ τ' r where
  shown := h.shown
  shown' := hshown'
  pairing := h.pairing.of_kept (fun _ hcell => hcell) fun hab => hτ _ _ (h.apart hab).2
  apart := h.apart
  input := h.input
  answers := by
    rw [List.filter_append, List.filter_cons_of_neg (by simp [hname]), List.filter_nil,
      List.append_nil]
    exact h.answers

/-! ## §3 What both runs see -/

/-- Leaving out the steps of a name leaves out their outputs. -/
theorem outputs_filter :
    (outputs done').filter (·.1 != name) = outputs (done'.filter (·.name != name)) := by
  rw [outputs, outputs, List.filter_map]
  rfl

/-- The outputs of the runs are the same data, but for those of the given name. -/
theorem outputs_correspond (h : Beside name steps input done done' σ τ r) :
    List.Forall₂ (fun o o' => o.1 = o'.1 ∧ o.2.Matches r o'.2) (outputs done)
      ((outputs done').filter (·.1 != name)) := by
  rw [outputs_filter, outputs, outputs, List.forall₂_map_left_iff, List.forall₂_map_right_iff]
  exact h.answers.imp fun _ _ hxy => ⟨hxy.name, hxy.output⟩

/-- The outputs are the same data under every other name. -/
theorem rel_field?_outputs (h : Beside name steps input done done' σ τ r) {key : String}
    (hne : key ≠ name) : Option.Rel (Value.Matches r) ((Entries.ofFields (outputs done)).field? key)
      ((Entries.ofFields (outputs done')).field? key) := by
  rw [← Entries.field?_filter hne (outputs done')]
  refine Entries.Correspond.get? ?_ _
  rw [Entries.Correspond, Entries.ofFields, Entries.ofFields, List.forall₂_map_left_iff,
    List.forall₂_map_right_iff]
  exact h.outputs_correspond.imp fun _ _ ho => ⟨congrArg Scalar.text ho.1, ho.2⟩

/-- Behind the steps there are the same views of outputs under every other name. -/
theorem rel_field?_shownSteps (h : Beside name steps input done done' σ τ r) {key : String}
    (hne : key ≠ name) : Option.Rel (Value.Matches r) ((shownSteps done).field? key)
      ((shownSteps done').field? key) := by
  have hentries : (done'.map fun y => (y.name, Value.shared y.entry)).filter (·.1 != name) =
      (done'.filter (·.name != name)).map fun y => (y.name, Value.shared y.entry) := by
    rw [List.filter_map]
    rfl
  rw [shownSteps, shownSteps, ← Entries.field?_filter hne (done'.map _), hentries]
  refine Entries.Correspond.get? ?_ _
  simp only [Entries.Correspond, Entries.ofFields, List.forall₂_map_left_iff,
    List.forall₂_map_right_iff]
  exact h.answers.imp fun _ _ hxy => ⟨congrArg Scalar.text hxy.name, .shared hxy.entry⟩

end Beside

namespace Expression

variable {r : Nat → Nat → Prop} {σ τ : Store} {v w : Value} {es fs : Entries}
  {walked rest : List Segment} {segment : Segment}

/-- Paths go on alike from entries that have the same under their first name. -/
theorem walk_agrees_of_fields (h : Pairing σ τ r) (hes : σ.entries? v = some es)
    (hfs : τ.entries? w = some fs)
    (hfield : Option.Rel (Value.Matches r) (es.field? segment.key) (fs.field? segment.key)) :
    Agree (Value.Matches r) (walk σ walked (segment :: rest) v)
      (walk τ walked (segment :: rest) w) := by
  generalize hx : es.field? segment.key = x at hfield
  generalize hy : fs.field? segment.key = y at hfield
  cases hfield with
  | some hsame =>
    rw [walk_cons_of_ok (follow_of_field segment hes hx),
      walk_cons_of_ok (follow_of_field segment hfs hy)]
    exact walk_agrees h hsame _ _
  | none =>
    rw [walk_cons_of_error (follow_of_no_field segment hes hx),
      walk_cons_of_error (follow_of_no_field segment hfs hy)]
    exact .error _

end Expression

namespace Beside

open StepRecord (Shown outputs roots scope shownSteps entries?_context field?_roots)

variable {invocation : Invocation} {name : String} {steps : Nat}
  {done done' : List StepRecord} {σ τ : Store} {r : Nat → Nat → Prop} {segments : List Segment}
  {tree left right : Tree} {e : Expression}

/-- The bare path of the steps finds the view of the steps. -/
theorem valueAt_bare {segment : Segment} (hkey : segment.key = Scope.stepsRoot) :
    Expression.valueAt σ [segment] (scope invocation steps done).context = .ok (.shared steps) := by
  have hfield : (roots invocation steps done).field? segment.key = some (.shared steps) := by
    rw [hkey]
    exact StepRecord.field?_roots_steps
  rw [Expression.valueAt, Expression.walk_cons_of_ok
    (Expression.follow_of_field segment entries?_context hfield)]
  rfl

/-- **Paths** that do not name the step find the same in both runs, unless they end with
the view of the steps. -/
theorem valueAt_agrees (h : Beside name steps invocation.input done done' σ τ r)
    (hne : segments ≠ []) (hrefers : ¬ RefersTo name segments)
    (hbare : ¬ (Tree.path segments).IsBare) :
    Agree (Value.Matches r) (Expression.valueAt σ segments (scope invocation steps done).context)
      (Expression.valueAt τ segments (scope invocation steps done').context) := by
  obtain ⟨first, rest, rfl⟩ := List.exists_cons_of_ne_nil hne
  have hfirst : first.key ≠ name := fun hkey => hrefers (.shorthand hkey)
  by_cases hsteps : first.key = Scope.stepsRoot
  · -- Behind the root of the steps the path goes on, and not with the name of the step.
    obtain _ | ⟨second, more⟩ := rest
    · exact absurd hsteps hbare
    have hsecond : second.key ≠ name := fun hkey => hrefers (.longhand hsteps hkey)
    have hroot : ∀ {done : List StepRecord}, (roots invocation steps done).field? first.key =
        some (.shared steps) := by
      intro done
      rw [hsteps]
      exact StepRecord.field?_roots_steps
    rw [Expression.valueAt, Expression.valueAt,
      Expression.walk_cons_of_ok (Expression.follow_of_field first entries?_context hroot),
      Expression.walk_cons_of_ok (Expression.follow_of_field first entries?_context hroot)]
    exact Expression.walk_agrees_of_fields h.pairing h.shown.entries?_steps h.shown'.entries?_steps
      (h.rel_field?_shownSteps hsecond)
  · refine Expression.walk_agrees_of_fields h.pairing entries?_context entries?_context ?_
    rw [field?_roots, field?_roots, if_neg (Ne.symm hsteps), if_neg (Ne.symm hsteps)]
    split_ifs
    · exact .some h.input
    · exact h.rel_field?_outputs hfirst

/-- The same data in both runs, or their views of the steps. -/
def Akin (steps : Nat) (r : Nat → Nat → Prop) (v w : Value) : Prop :=
  v.Matches r w ∨ v = .shared steps ∧ w = .shared steps

/-- What is akin has the same sums. -/
theorem add_agrees (h : Beside name steps invocation.input done done' σ τ r) {v w v' w' : Value}
    (hleft : Akin steps r v w) (hright : Akin steps r v' w') :
    Agree (Value.Matches r) (Expression.add σ v v') (Expression.add τ w w') := by
  have hsame : ∀ {v w : Value}, Akin steps r v w → v.scalar? = w.scalar? ∧
      v.kindName σ = w.kindName τ := by
    rintro v w (hsame | ⟨rfl, rfl⟩)
    · exact ⟨hsame.scalar?_eq, h.pairing.kindName_eq hsame⟩
    · -- The view of the steps is a view in both runs.
      simp only [Value.kindName, Value.typeName, h.shown.all, h.shown'.all, Value.scalar?, and_self]
  refine .of_eq (Expression.add_eq_add (hsame hleft).1 (hsame hright).1 (hsame hleft).2
    (hsame hright).2) fun v hv => ?_
  obtain ⟨s, rfl⟩ := Expression.add_atom hv
  exact .atom s

/-- A sum is the same in both runs if its operands are akin. -/
theorem binary_agrees (h : Beside name steps invocation.input done done' σ τ r) (operator : String)
    (hleft : Agree (Akin steps r) (left.evaluate σ (scope invocation steps done).context)
      (left.evaluate τ (scope invocation steps done').context))
    (hright : Agree (Akin steps r) (right.evaluate σ (scope invocation steps done).context)
      (right.evaluate τ (scope invocation steps done').context)) :
    Agree (Value.Matches r) ((Tree.binary operator left right).evaluate σ
      (scope invocation steps done).context)
        ((Tree.binary operator left right).evaluate τ (scope invocation steps done').context) :=
  hleft.bind fun _ _ hl => hright.bind fun _ _ hr => h.add_agrees hl hr

/-- Trees that avoid the step are akin in both runs. -/
theorem evaluate_akin (h : Beside name steps invocation.input done done' σ τ r)
    (havoids : tree.Avoids name) :
    Agree (Akin steps r) (tree.evaluate σ (scope invocation steps done).context)
      (tree.evaluate τ (scope invocation steps done').context) := by
  induction tree with
  | literal value => exact .ok (.inl (Value.matches_self_of_plain havoids))
  | path segments =>
    by_cases hbare : (Tree.path segments).IsBare
    · obtain ⟨segment, rfl, hkey⟩ := Tree.isBare_path_iff.mp hbare
      rw [Tree.evaluate, Tree.evaluate, valueAt_bare hkey, valueAt_bare hkey]
      exact .ok (.inr ⟨rfl, rfl⟩)
    · exact (h.valueAt_agrees havoids.1 havoids.2 hbare).imp fun _ _ => .inl
  | binary operator left right ihl ihr =>
    exact (h.binary_agrees operator (ihl havoids.1) (ihr havoids.2)).imp fun _ _ => .inl
  | alien typeName => exact .error _

/-- **Expressions** that avoid the step are the same in both runs. -/
theorem evaluate_agrees (h : Beside name steps invocation.input done done' σ τ r)
    (havoids : e.Avoids name) :
    Agree (Value.Matches r) (e.evaluate σ (scope invocation steps done).context)
      (e.evaluate τ (scope invocation steps done').context) := by
  obtain ⟨source, tree⟩ := e
  obtain ⟨hpaths, hbare⟩ := havoids
  cases tree with
  | literal value => exact .ok (Value.matches_self_of_plain hpaths)
  | path segments => exact h.valueAt_agrees hpaths.1 hpaths.2 hbare
  | binary operator left right =>
    exact h.binary_agrees operator (h.evaluate_akin hpaths.1) (h.evaluate_akin hpaths.2)
  | alien typeName => exact .error _

/-- **What both runs see** is the same to expressions that avoid the step. -/
theorem contextsAgree (h : Beside name steps invocation.input done done' σ τ r) :
    ContextsAgree (Expression.Avoids name) σ (scope invocation steps done).context τ
      (scope invocation steps done').context r :=
  fun hgrown havoids => (h.of_grown hgrown).evaluate_agrees havoids

/-- **The bindings** of a step that avoids the other resolve to the same in both runs. -/
theorem resolve_agrees (h : Beside name steps invocation.input done done' σ τ r) {step : Step}
    (havoids : step.Avoids name) :
    Agree (Binding.ComeAlike Value.Matches σ τ r)
      (Binding.resolveRecord (scope invocation steps done).context step.bindings σ)
      (Binding.resolveRecord (scope invocation steps done').context step.bindings τ) :=
  Binding.resolve_agrees havoids h.pairing h.contextsAgree

/-! ## §4 What both runs answer -/

/-- **The values** of the runs: a designated output of another name is the same data in both, and so
is the last output, if it is not that of the step that only the second run has. -/
theorem answerOf_agrees (h : Beside name steps invocation.input done done' σ τ r)
    {pipeline : Pipeline} (houtput : ∀ key, pipeline.output = some key → key ≠ name)
    (hlast : pipeline.output = none → ∃ y, done'.getLast? = some y ∧ y.name ≠ name) :
    Agree (Value.Matches r) (Engine.answerOf pipeline (scope invocation steps done))
      (Engine.answerOf pipeline (scope invocation steps done')) := by
  unfold Engine.answerOf
  cases hdesignated : pipeline.output with
  | some key =>
    have hfound := h.rel_field?_outputs (houtput key hdesignated)
    rw [← Outputs.find?_eq_field?, ← Outputs.find?_eq_field?] at hfound
    simp only [Outputs.get, scope]
    generalize Outputs.find? (outputs done) key = x at hfound
    generalize Outputs.find? (outputs done') key = y at hfound
    cases hfound with
    | some hsame => exact .ok hsame
    | none => exact .error _
  | none =>
    obtain ⟨y, hy, hname⟩ := hlast hdesignated
    -- The last step of the second run is also the last one that both have.
    have hkept : (done'.filter (·.name != name)).getLast? = some y := by
      obtain ⟨front, rfl⟩ := List.getLast?_eq_some_iff.mp hy
      rw [List.filter_append, List.filter_cons_of_pos (by simpa using hname), List.filter_nil,
        List.getLast?_concat]
    have hrel := rel_getElem? h.answers (done.length - 1)
    rw [← List.getLast?_eq_getElem?] at hrel
    rw [h.answers.length_eq, ← List.getLast?_eq_getElem?, hkept] at hrel
    generalize hx : done.getLast? = last at hrel
    cases hrel with
    | some hsame =>
      simp only [scope, Outputs.last, outputs, List.getLast?_map, hx, hy, Option.map_some]
      exact .ok hsame.output

end Beside

end Switchyard
