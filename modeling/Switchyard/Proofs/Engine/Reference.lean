import Switchyard.Proofs.Engine.Frame
import Switchyard.Proofs.Failure.Telling
import Switchyard.Proofs.Pipeline.Checked
import Switchyard.Proofs.Value.Extension

/-!
# The reference fold

What a run of a pipeline amounts to when its units are functions: a fold over the steps that knows
nothing but the input and the outputs so far. Before each step everything that expressions can see
is made anew from these, so a step cannot depend on anything else. The first step whose bindings
fail to resolve or whose unit raises ends the fold.

Main statements: recording an output makes the scope and the views that the fold makes anew
(`record_scope`), and how performing a step ends (`perform_error`, `perform_ok`).
-/

namespace Switchyard

/-! ## §1 The fold -/

/-- What units do as functions: from the name of a unit, its configuration, its caller and the
surroundings to the surroundings afterwards and an answer. -/
abbrev Operations := String → Value → Caller → Surroundings → Surroundings × Except Raised Value

/-- What is kept of a step that ran; `entry` is the address of the view that shows its output. -/
structure StepRecord where
  name : String
  output : Value
  entry : Nat
  deriving Inhabited

namespace StepRecord

variable (invocation : Invocation) (steps : Nat) (done : List StepRecord)

/-- The outputs of the steps that ran, in order. -/
def outputs : Outputs := done.map fun r => (r.name, r.output)

/-- What the view of a step holds. -/
def shownOutput (r : StepRecord) : Entries := .ofFields [("output", r.output)]

/-- What the view of the steps holds. -/
def shownSteps : Entries := .ofFields (done.map fun r => (r.name, .shared r.entry))

/-- What expressions see: the input, the steps, and each step under its own name. -/
def roots : Entries :=
  .ofFields ((Scope.inputRoot, invocation.input) :: (Scope.stepsRoot,
    .shared steps) :: outputs done)

/-- The scope of an invocation, made from its input and the steps that ran. -/
def scope : Scope where
  input := invocation.input
  claims := invocation.claims
  correlationId := invocation.correlationId
  outputs := outputs done
  steps := steps
  roots := roots invocation steps done

/-- The store with its views made anew from the steps that ran. -/
def showIn (σ : Store) : Store :=
  (done.foldl (fun σ r => σ.set r.entry (.view r.shownOutput)) σ).set steps
    (.view (shownSteps done))

/-- The surroundings with the views made anew. -/
def display (s : Surroundings) : Surroundings := { s with store := showIn steps done s.store }

end StepRecord

namespace Operations

open StepRecord (scope display)

variable (ops : Operations) (invocation : Invocation) (steps : Nat)

/-- Performs one step: resolves its bindings, calls its unit, and keeps the
output behind a new view. -/
def perform (step : Step) (done : List StepRecord) (s : Surroundings) :
    Surroundings × Except Raised StepRecord :=
  match Binding.resolveRecord (scope invocation steps done).context step.bindings s.store with
  | .error problem => (s, .error problem.raised)
  | .ok (config, store) =>
    match ops step.uses config (.invocation (scope invocation steps done) invocation.signal)
      { s with store } with
    | (s, .error e) => (s, .error e)
    | (s, .ok output) =>
      ({ s with store := (s.store.alloc (.view (Entries.ofFields [("output", output)]))).2 },
        .ok ⟨step.name, output, s.store.cells.size⟩)

/-- Folds over steps, the first of which is at `index`: up to the first one that fails,
or over all of them. -/
def fold : (index : Nat) → List Step → List StepRecord → Surroundings →
    Surroundings × Except (Nat × Step × Raised) (List StepRecord)
  | _, [], done, s => (display steps done s, .ok done)
  | index, step :: rest, done, s =>
    match ops.perform invocation steps step done (display steps done s) with
    | (s, .error e) => (s, .error (index, step, e))
    | (s, .ok record) => fold (index + 1) rest (done ++ [record]) s

/-- **The reference** for a run of a pipeline: no step has run, and a new view
stands for the steps. -/
def reference (pipeline : Pipeline) (s : Surroundings) :
    Surroundings × Except (Nat × Step × Raised) (List StepRecord) :=
  ops.fold invocation s.store.cells.size 0 pipeline.steps [] { s with
    store := (s.store.alloc (.view [])).2 }

/-- **Lawful operations**: they cannot change a view, they do not call the invocation off, and what
they raise says what it says in plain data. -/
structure Lawful (ops : Operations) (signal : Option Nat) : Prop where
  keepsViews : ∀ uses config caller (s : Surroundings),
    s.store.KeepsViews (ops uses config caller s).1.store
  callsNothingOff : ∀ uses config caller (s : Surroundings),
    s.isGiven signal = false → (ops uses config caller s).1.isGiven signal = false
  plain : ∀ uses config caller s e, (ops uses config caller s).2 = .error e → e.Plain

end Operations

/-- The units of a table do as the operations say, each at once. -/
def PipelineTable.Computes (table : PipelineTable) (ops : Operations) : Prop :=
  ∀ uses unit, table.units.lookup uses = some unit → ∃ u behaviour, unit = some u ∧
    u.behaviour = some behaviour ∧
    ∀ config caller s, behaviour config caller s =
      .done (ops uses config caller s).1 (ops uses config caller s).2

/-- **The value of a run** whose steps all succeeded. -/
inductive Pipeline.Yields (pipeline : Pipeline) (input : Value) (done : List StepRecord) :
    Value → Prop
  | designated {r : StepRecord} :
      pipeline.output = some r.name → r ∈ done → Yields pipeline input done r.output
  | last {r : StepRecord} :
      pipeline.output = none → done.getLast? = some r → Yields pipeline input done r.output
  | input : pipeline.output = none → pipeline.steps = [] → Yields pipeline input done input

/-- **The outcome of a fold**: all outputs in the order of the steps and the value they yield,
or nothing but the failure of the step that ended it. The failure tells the error as the
coroutine passes it on in which the unit is called: a `StopIteration` as a `RuntimeError`, and
every other error as it is. -/
def Pipeline.Reports (pipeline : Pipeline) (input : Value) :
    Except (Nat × Step × Raised) (List StepRecord) → Outcome → Prop
  | .ok done, outcome =>
    done.map (·.name) = pipeline.stepNames ∧ ∃ value, pipeline.Yields input done value ∧
      outcome = .success value (StepRecord.outputs done)
  | .error (index, step, e), outcome => pipeline.steps[index]? = some step ∧ ∃ failure : Failure,
      failure.Tells step index e.passedOn ∧ outcome = .failed failure []

/-! ## §2 Views of the steps -/

namespace StepRecord

variable {invocation : Invocation} {steps : Nat} {done : List StepRecord} {σ τ : Store}
  {r : StepRecord}

/-- **The views are up to date**: those of the steps that ran, and that of all the steps,
which is none of them. -/
structure Shown (steps : Nat) (done : List StepRecord) (σ : Store) : Prop where
  all : σ.cell? steps = some (.view (shownSteps done))
  each : ∀ r ∈ done, σ.cell? r.entry = some (.view r.shownOutput)
  apart : ∀ r ∈ done, r.entry ≠ steps

theorem Shown.of_keepsViews (h : Shown steps done σ) (hkeeps : σ.KeepsViews τ) :
    Shown steps done τ where
  all := hkeeps _ _ h.all
  each r hr := hkeeps _ _ (h.each r hr)
  apart := h.apart

/-- Making the views of steps anew that are up to date changes nothing. -/
theorem foldl_set_eq_self (h : ∀ r ∈ done, σ.cell? r.entry = some (.view r.shownOutput)) :
    done.foldl (fun σ r => σ.set r.entry (.view r.shownOutput)) σ = σ := by
  induction done with
  | nil => rfl
  | cons r rest ih =>
    rw [List.foldl_cons, Store.set_eq_self (h r (List.mem_cons_self ..))]
    exact ih fun r' hr' => h r' (List.mem_cons_of_mem _ hr')

theorem Shown.showIn_eq_self (h : Shown steps done σ) : showIn steps done σ = σ := by
  rw [showIn, foldl_set_eq_self h.each, Store.set_eq_self h.all]

/-- No step has run and a new view stands for the steps. -/
theorem shown_start (σ : Store) : Shown σ.cells.size [] (σ.alloc (.view [])).2 where
  all := Store.cell?_alloc_self
  each := by simp
  apart := by simp

/-- Recording a step is what making the views anew does after its output was
put behind a new one. -/
theorem Shown.record (h : Shown steps done σ) (hentry : r.entry = σ.cells.size) :
    Shown steps (done ++ [r]) (showIn steps (done ++ [r]) (σ.alloc (.view r.shownOutput)).2) ∧
      showIn steps (done ++ [r]) (σ.alloc (.view r.shownOutput)).2 =
        (σ.alloc (.view r.shownOutput)).2.set steps (.view (shownSteps (done ++ [r]))) := by
  have hlt : steps < σ.cells.size := Store.lt_size_of_cell? h.all
  -- The view of every step is up to date before the view of all the steps is.
  have heach : ∀ r' ∈ done ++ [r], (σ.alloc (.view r.shownOutput)).2.cell? r'.entry =
      some (.view r'.shownOutput) := by
    intro r' hr'
    rcases List.mem_append.mp hr' with hold | hnew
    · exact Store.extends_alloc σ _ _ _ (h.each r' hold)
    · obtain rfl := List.mem_singleton.mp hnew
      rw [hentry]
      exact Store.cell?_alloc_self
  have hapart : ∀ r' ∈ done ++ [r], r'.entry ≠ steps := by
    intro r' hr'
    rcases List.mem_append.mp hr' with hold | hnew
    · exact h.apart r' hold
    · obtain rfl := List.mem_singleton.mp hnew
      omega
  -- So only the view of all the steps has to be made anew.
  have hshow : showIn steps (done ++ [r]) (σ.alloc (.view r.shownOutput)).2 =
      (σ.alloc (.view r.shownOutput)).2.set steps (.view (shownSteps (done ++ [r]))) := by
    rw [showIn, foldl_set_eq_self heach]
  refine ⟨?_, hshow⟩
  rw [hshow]
  exact
    { all := Store.cell?_set_self (by rw [Store.size_alloc]; omega)
      each := fun r' hr' => by
        rw [Store.cell?_set_of_ne (hapart r' hr').symm]
        exact heach r' hr'
      apart := hapart }

end StepRecord

/-! ## §3 Recording an output -/

namespace StepRecord

variable {invocation : Invocation} {steps : Nat} {done : List StepRecord} {σ : Store}
  {name : String} {output : Value}

@[simp] theorem names_outputs : (outputs done).names = done.map (·.name) := by
  simp [Outputs.names, outputs]

theorem names_roots :
    (((Scope.inputRoot, invocation.input) :: (Scope.stepsRoot, Value.shared steps) ::
    outputs done).map (·.1)) = reservedNames ++ done.map (·.name) := by
  simp [outputs, reservedNames]

/-- **Recording** the output of a step under a new name gives the scope made from one more step. -/
theorem record_scope (h : Shown steps done σ) (hnew : name ∉ done.map (·.name))
    (hreserved : name ∉ reservedNames) : (scope invocation steps done).record name output σ =
      .ok (scope invocation steps (done ++ [⟨name, output, σ.cells.size⟩]),
        showIn steps (done ++ [⟨name, output, σ.cells.size⟩])
          (σ.alloc (.view (Entries.ofFields [("output", output)]))).2) := by
  -- The view of all the steps is still the one from before when the output is put behind its own.
  have hseen : (σ.alloc (.view (Entries.ofFields [("output", output)]))).2.entries?
      (.shared steps) =
      some (shownSteps done) := by
    simp only [Store.entries?, Store.shape, Store.extends_alloc σ _ _ _ h.all]
  have hsteps : (shownSteps done).put (.text name) (.shared σ.cells.size) =
      shownSteps (done ++ [⟨name, output, σ.cells.size⟩]) := by
    rw [shownSteps, Entries.put_ofFields _ (by simpa using hnew), shownSteps, List.map_append]
    rfl
  -- The name is that of no root, so it comes after all of them.
  have hroots : (roots invocation steps done).put (.text name) output =
      roots invocation steps (done ++ [⟨name, output, σ.cells.size⟩]) := by
    rw [roots, Entries.put_ofFields
      _ (by rw [names_roots, List.mem_append]; exact not_or.mpr ⟨hreserved, hnew⟩), roots, outputs,
        outputs, List.map_append]
    rfl
  have hshow := (h.record (r := ⟨name, output, σ.cells.size⟩) rfl).2
  rw [shownOutput] at hshow
  have houtputs : (outputs done).record name output =
      .ok (outputs (done ++ [⟨name, output, σ.cells.size⟩])) := by
    rw [Outputs.record_of_new (by rwa [names_outputs]), outputs, outputs, List.map_append]
    rfl
  simp only [Scope.record, scope, houtputs]
  rw [hshow, ← hsteps, ← hroots]
  simp only [Entries.ofFields_cons, Entries.ofFields_nil] at hseen ⊢
  rw [hseen]
  rfl

end StepRecord

/-! ## §4 How a step is performed -/

namespace Operations

open StepRecord (scope)

variable {ops : Operations} {invocation : Invocation} {steps : Nat} {step : Step}
  {done : List StepRecord} {s s' : Surroundings}

/-- How performing a step fails: its bindings do not resolve, or its unit raises. -/
theorem perform_error {e : Raised} (h : ops.perform invocation steps step done s = (s', .error e)) :
    (∃ problem, Binding.resolveRecord (scope invocation steps done).context step.bindings s.store =
      .error problem ∧
        s' = s ∧ e = problem.raised) ∨
      ∃ config store, Binding.resolveRecord
        (scope invocation steps done).context step.bindings s.store =
          .ok (config, store) ∧
        ops step.uses config (.invocation (scope invocation steps done) invocation.signal)
        { s with store } =
          (s', .error e) := by
  unfold perform at h
  split at h
  · rename_i problem hproblem
    obtain ⟨rfl, he⟩ := Prod.mk.inj h
    exact .inl ⟨problem, hproblem, rfl, (Except.error.inj he).symm⟩
  · rename_i config store hresolved
    split at h
    · rename_i s₁ e₁ hops
      obtain ⟨rfl, he⟩ := Prod.mk.inj h
      obtain rfl := Except.error.inj he
      exact .inr ⟨config, store, hresolved, hops⟩
    · cases (Prod.mk.inj h).2

/-- How performing a step succeeds: its bindings resolve and its unit answers. -/
theorem perform_ok {r : StepRecord} (h : ops.perform invocation steps step done s = (s', .ok r)) :
    ∃ config store s₁ output, Binding.resolveRecord
      (scope invocation steps done).context step.bindings s.store =
        .ok (config, store) ∧
      ops step.uses config (.invocation (scope invocation steps done) invocation.signal)
      { s with store } =
        (s₁, .ok output) ∧
      s' = { s₁ with store := (s₁.store.alloc (.view (Entries.ofFields [("output", output)]))).2 } ∧
      r = ⟨step.name, output, s₁.store.cells.size⟩ := by
  unfold perform at h
  split at h
  · cases (Prod.mk.inj h).2
  · rename_i config store hresolved
    split at h
    · cases (Prod.mk.inj h).2
    · rename_i s₁ output hops
      obtain ⟨rfl, hr⟩ := Prod.mk.inj h
      exact ⟨config, store, s₁, output, hresolved, hops, rfl, (Except.ok.inj hr).symm⟩

end Operations

/-! ## §5 Functions as operations -/

namespace Operations

/-- The operations of units that are functions: they read the store, and
answer or raise an error. -/
def ofFunctions (f : String → Value → Caller → Store → Except Raised Value) : Operations :=
  fun uses config caller s => (s, f uses config caller s.store)

/-- Functions are lawful if their errors are plain. -/
theorem lawful_ofFunctions {f : String → Value → Caller → Store → Except Raised Value}
    (signal : Option Nat)
    (hplain : ∀ uses config caller σ e, f uses config caller σ = .error e → e.Plain) :
    (ofFunctions f).Lawful signal where
  keepsViews _ _ _ _ _ _ hview := hview
  callsNothingOff _ _ _ _ hcalm := hcalm
  plain uses config caller s e he := hplain uses config caller s.store e he

end Operations

end Switchyard
