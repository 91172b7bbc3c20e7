import Switchyard.Proofs.Pipeline.Rebuild
import Switchyard.Units.Probe
import Mathlib.Data.List.Forall2

/-!
# What the checks report

Pipelines are checked at certain spots: the route of each, whether an earlier one has it as well,
the name and the unit of each step, and the designated output. Each spot is right or wrong by
itself, whatever else is wrong, and the problems that are found are those of the wrong spots, one
for each, in the order of the spots. If no spot is wrong, and no unit fails to be built, there is a
table, and it serves all pipelines and no others.

Main statements: the problems of pipelines are those of their wrong spots (`exists_listed`), a built
table serves its pipelines and no others (`find?_iff_of_build`), and both together
(`reports_wrong_or_serves_all`).
-/

namespace Switchyard

/-! ## §1 Spots -/

/-- **A spot** at which pipelines are checked, by the place of a pipeline and
of one of its steps. -/
inductive Spot
  | routeOf (i : Nat)
  | repeatOf (i : Nat)
  | nameOf (i j : Nat)
  | unitOf (i j : Nat)
  | outputOf (i : Nat)

namespace Spot

/-- The place of the pipeline. -/
def pipeline : Spot → Nat
  | .routeOf i | .repeatOf i | .nameOf i _ | .unitOf i _ | .outputOf i => i

/-- Where a spot comes: the pipelines come in their order, and so do the steps of each, after its
route and before its output. -/
def place : Spot → List Nat
  | .routeOf i => [i, 0]
  | .repeatOf i => [i, 1]
  | .nameOf i j => [i, 2, j, 0]
  | .unitOf i j => [i, 2, j, 1]
  | .outputOf i => [i, 3]

def Before (s t : Spot) : Prop := s.place < t.place

/-- **Something is wrong at a spot**: a route is not named or an earlier pipeline has it, the name
of a step is missing, reserved or that of an earlier step, its unit is not known, or no step has
the designated output. -/
def Wrong (reserved : List String) (known : String → Bool) (pipelines : List Pipeline) : Spot → Prop
  | .routeOf i => ∃ p, pipelines[i]? = some p ∧ (p.route.interface = "" ∨ p.route.method = "")
  | .repeatOf i =>
    ∃ p, pipelines[i]? = some p ∧ ∃ i' p', i' < i ∧ pipelines[i']? = some p' ∧ p'.route = p.route
  | .nameOf i j => ∃ p step, pipelines[i]? = some p ∧ p.steps[j]? = some step ∧
      (step.name = "" ∨ step.name ∈ reserved ∨
        ∃ j' step', j' < j ∧ p.steps[j']? = some step' ∧ step'.name = step.name)
  | .unitOf i j =>
    ∃ p step, pipelines[i]? = some p ∧ p.steps[j]? = some step ∧ known step.uses = false
  | .outputOf i =>
    ∃ p name, pipelines[i]? = some p ∧ p.output = some name ∧ ∀ step ∈ p.steps, step.name ≠ name

/-- **How a wrong spot is reported**: with the route of its pipeline, the place of its step,
and what is wrong. A name is reported as missing rather than as reserved, and as reserved
rather than as repeated. -/
inductive ReportedAs (reserved : List String) (pipelines : List Pipeline) :
    Spot → PipelineProblem → Prop
  | emptyRoute {i : Nat} {p : Pipeline} : pipelines[i]? = some p →
      ReportedAs reserved pipelines (.routeOf i) (.emptyRoute p.route)
  | repeatedRoute {i : Nat} {p : Pipeline} : pipelines[i]? = some p →
      ReportedAs reserved pipelines (.repeatOf i) (.repeatedRoute p.route)
  | emptyName {i j : Nat} {p : Pipeline} {step : Step} :
      pipelines[i]? = some p → p.steps[j]? = some step →
      step.name = "" → ReportedAs reserved pipelines (.nameOf i j) (.emptyName p.route j)
  | reservedName {i j : Nat} {p : Pipeline} {step : Step} :
      pipelines[i]? = some p → p.steps[j]? = some step →
      step.name ≠ "" → step.name ∈ reserved →
      ReportedAs reserved pipelines (.nameOf i j) (.reservedName p.route j step.name)
  | repeatedName {i j : Nat} {p : Pipeline} {step : Step} :
      pipelines[i]? = some p → p.steps[j]? = some step →
      step.name ≠ "" → step.name ∉ reserved →
      ReportedAs reserved pipelines (.nameOf i j) (.repeatedName p.route j step.name)
  | unknownUnit {i j : Nat} {p : Pipeline} {step : Step} :
      pipelines[i]? = some p → p.steps[j]? = some step →
      ReportedAs reserved pipelines (.unitOf i j) (.unknownUnit p.route j step.uses)
  | unknownOutput {i : Nat} {p : Pipeline} {name : String} :
      pipelines[i]? = some p → p.output = some name →
      ReportedAs reserved pipelines (.outputOf i) (.unknownOutput p.route name)

/-- A spot at the given step. -/
def AtStep (i j : Nat) (s : Spot) : Prop := s = .nameOf i j ∨ s = .unitOf i j

variable {s t : Spot} {i j k : Nat}

/-- The spots of a pipeline come before those of later ones. -/
theorem before_of_pipeline_lt (h : s.pipeline < t.pipeline) : s.Before t := by
  cases s <;> cases t <;> exact List.Lex.rel h

/-- The spots of a step come before those of later ones of its pipeline. -/
theorem before_of_step_lt (hs : s.AtStep i j) (ht : t.AtStep i k) (h : j < k) : s.Before t := by
  rcases hs with rfl | rfl <;> rcases ht with rfl | rfl <;>
      simp [Before, place, List.cons_lt_cons_iff, h]

/-- What is wrong is wrong with some pipeline. -/
theorem Wrong.exists_pipeline {reserved : List String} {known : String → Bool}
    {pipelines : List Pipeline} (h : s.Wrong reserved known pipelines) :
    ∃ p, pipelines[s.pipeline]? = some p := by
  cases s with
  | routeOf i | repeatOf i =>
    obtain ⟨p, hp, -⟩ := h
    exact ⟨p, hp⟩
  | nameOf i j | unitOf i j | outputOf i =>
    obtain ⟨p, -, hp, -⟩ := h
    exact ⟨p, hp⟩

end Spot

/-! ## §2 Lists of problems -/

namespace PipelineProblem

open Spot (Before ReportedAs Wrong)

variable {reserved : List String} {known : String → Bool} {pipelines : List Pipeline}
  {spots spots' : Spot → Prop} {problems problems' : List PipelineProblem}

/-- **Problems that are those of some spots**: one for each of them that is wrong, in the
order of the spots. -/
def Lists (reserved : List String) (known : String → Bool) (pipelines : List Pipeline)
    (spots : Spot → Prop) (problems : List PipelineProblem) : Prop :=
  ∃ listed : List Spot, listed.Pairwise Before ∧
    (∀ s, s ∈ listed ↔ spots s ∧ s.Wrong reserved known pipelines) ∧
    List.Forall₂ (ReportedAs reserved pipelines) listed problems

namespace Lists

theorem nil (h : ∀ s, spots s → ¬ s.Wrong reserved known pipelines) :
    Lists reserved known pipelines spots [] :=
  ⟨[], .nil, fun s => by simpa using h s, .nil⟩

/-- Problems of some spots and then those of later spots are the problems of all these spots. -/
theorem append (h : Lists reserved known pipelines spots problems)
    (h' : Lists reserved known pipelines spots' problems')
    (hbefore : ∀ s t, spots s → spots' t → s.Before t) :
    Lists reserved known pipelines (fun s => spots s ∨ spots' s) (problems ++ problems') := by
  obtain ⟨listed, hsorted, hmem, hreported⟩ := h
  obtain ⟨listed', hsorted', hmem', hreported'⟩ := h'
  refine ⟨listed ++ listed', ?_, fun s => ?_, List.rel_append hreported hreported'⟩
  · refine List.pairwise_append.mpr ⟨hsorted, hsorted', fun s hs t ht => ?_⟩
    exact hbefore s t ((hmem s).mp hs).1 ((hmem' t).mp ht).1
  · rw [List.mem_append, hmem, hmem', or_and_right]

theorem congr (h : Lists reserved known pipelines spots problems)
    (hspots : ∀ s, spots s ↔ spots' s) : Lists reserved known pipelines spots' problems := by
  obtain rfl : spots = spots' := funext fun s => propext (hspots s)
  exact h

/-- At a spot that is right there is no problem. -/
theorem of_right {spot : Spot} (h : ¬ spot.Wrong reserved known pipelines) :
    Lists reserved known pipelines (· = spot) [] := by
  refine .nil ?_
  rintro s rfl
  exact h

/-- At a spot that is wrong there is one problem. -/
theorem of_wrong {spot : Spot} {problem : PipelineProblem}
    (hwrong : spot.Wrong reserved known pipelines)
    (hreported : spot.ReportedAs reserved pipelines problem) :
    Lists reserved known pipelines (· = spot) [problem] := by
  refine ⟨[spot], List.pairwise_singleton .., fun s => ?_, .cons hreported .nil⟩
  rw [List.mem_singleton]
  constructor
  · rintro rfl
    exact ⟨rfl, hwrong⟩
  · exact fun h => h.1

end Lists

/-- What the elements before a place are mapped to. -/
theorem mem_map_before {α β : Type} {f : α → β} {all before rest : List α}
    (h : all = before ++ rest) {y : β} :
    y ∈ before.map f ↔ ∃ k x, k < before.length ∧ all[k]? = some x ∧ f x = y := by
  subst h
  rw [List.mem_map]
  constructor
  · rintro ⟨x, hx, rfl⟩
    obtain ⟨k, hk, rfl⟩ := List.mem_iff_getElem.mp hx
    exact ⟨k, before[k], hk, by rw [List.getElem?_append_left hk, List.getElem?_eq_getElem hk], rfl⟩
  · rintro ⟨k, x, hk, hx, rfl⟩
    rw [List.getElem?_append_left hk] at hx
    exact ⟨x, List.mem_of_getElem? hx, rfl⟩

/-! ## §3 One spot -/

variable {i j : Nat} {p : Pipeline} {step : Step}

theorem wrong_routeOf_iff (hp : pipelines[i]? = some p) :
    Wrong reserved known pipelines (.routeOf i) ↔ p.route.interface = "" ∨ p.route.method = "" := by
  simp [Wrong, hp]

theorem wrong_repeatOf_iff {done rest : List Pipeline}
    (hpipelines : pipelines = done ++ p :: rest) :
    Wrong reserved known pipelines (.repeatOf done.length) ↔ p.route ∈ done.map (·.route) := by
  have hp : pipelines[done.length]? = some p := by simp [hpipelines]
  rw [mem_map_before hpipelines]
  simp [Wrong, hp]

theorem wrong_nameOf_iff (hp : pipelines[i]? = some p) {done rest : List Step}
    (hsteps : p.steps = done ++ step :: rest) :
    Wrong reserved known pipelines (.nameOf i done.length) ↔
      step.name = "" ∨ step.name ∈ reserved ∨ step.name ∈ done.map (·.name) := by
  have hstep : p.steps[done.length]? = some step := by simp [hsteps]
  rw [mem_map_before hsteps]
  simp [Wrong, hp, hstep]

theorem wrong_unitOf_iff (hp : pipelines[i]? = some p) (hstep : p.steps[j]? = some step) :
    Wrong reserved known pipelines (.unitOf i j) ↔ known step.uses = false := by
  simp [Wrong, hp, hstep]

theorem wrong_outputOf_iff (hp : pipelines[i]? = some p) :
    Wrong reserved known pipelines (.outputOf i) ↔ ∃ name, p.output = some name ∧
      name ∉ p.stepNames := by
  simp [Wrong, hp, Pipeline.stepNames]

theorem lists_emptyRoute (hp : pipelines[i]? = some p) :
    Lists reserved known pipelines (· = .routeOf i)
      (if p.route.interface = "" ∨ p.route.method = "" then [.emptyRoute p.route] else []) := by
  split_ifs with hempty
  · exact .of_wrong ((wrong_routeOf_iff hp).mpr hempty) (.emptyRoute hp)
  · exact .of_right (mt (wrong_routeOf_iff hp).mp hempty)

theorem lists_repeatedRoute {done rest : List Pipeline}
    (hpipelines : pipelines = done ++ p :: rest) :
    Lists reserved known pipelines (· = .repeatOf done.length)
      (if (done.map (·.route)).contains p.route then [.repeatedRoute p.route] else []) := by
  have hp : pipelines[done.length]? = some p := by simp [hpipelines]
  split_ifs with hrepeated
  · exact .of_wrong ((wrong_repeatOf_iff hpipelines).mpr (by simpa using hrepeated))
      (.repeatedRoute hp)
  · exact .of_right (mt (wrong_repeatOf_iff hpipelines).mp (by simpa using hrepeated))

/-- A wrong name is one problem, however many things are wrong with it. -/
theorem lists_ofName (hp : pipelines[i]? = some p) {done rest : List Step}
    (hsteps : p.steps = done ++ step :: rest) :
    Lists reserved known pipelines (· = .nameOf i done.length)
      (ofName reserved p.route done.length (done.map (·.name)) step.name).toList := by
  have hstep : p.steps[done.length]? = some step := by simp [hsteps]
  cases hproblem : ofName reserved p.route done.length (done.map (·.name)) step.name with
  | none =>
    obtain ⟨hempty, hreserved, hrepeated⟩ := ofName_eq_none_iff.mp hproblem
    refine .of_right (mt (wrong_nameOf_iff hp hsteps).mp ?_)
    rintro (h | h | h)
    · exact hempty h
    · exact hreserved h
    · exact hrepeated h
  | some problem =>
    unfold ofName at hproblem
    split_ifs at hproblem with hempty hreserved hrepeated
    · obtain rfl := Option.some.inj hproblem
      exact .of_wrong ((wrong_nameOf_iff hp hsteps).mpr (.inl hempty)) (.emptyName hp hstep hempty)
    · obtain rfl := Option.some.inj hproblem
      have hmem : step.name ∈ reserved := by simpa using hreserved
      exact .of_wrong ((wrong_nameOf_iff hp hsteps).mpr (.inr (.inl hmem)))
        (.reservedName hp hstep hempty hmem)
    · obtain rfl := Option.some.inj hproblem
      have hnot : step.name ∉ reserved := by simpa using hreserved
      have hmem : step.name ∈ done.map (·.name) := by simpa using hrepeated
      exact .of_wrong ((wrong_nameOf_iff hp hsteps).mpr (.inr (.inr hmem)))
        (.repeatedName hp hstep hempty hnot)

theorem lists_ofUnit (hp : pipelines[i]? = some p) (hstep : p.steps[j]? = some step) :
    Lists reserved known pipelines (· = .unitOf i j) (ofUnit known p.route j step.uses).toList := by
  unfold ofUnit
  split_ifs with hknown
  · exact .of_right (mt (wrong_unitOf_iff hp hstep).mp (by simpa using hknown))
  · exact .of_wrong ((wrong_unitOf_iff hp hstep).mpr (by simpa using hknown))
      (.unknownUnit hp hstep)

theorem lists_ofOutput (hp : pipelines[i]? = some p) :
    Lists reserved known pipelines (· = .outputOf i) (ofOutput p).toList := by
  cases hproblem : ofOutput p with
  | none =>
    refine .of_right (mt (wrong_outputOf_iff hp).mp ?_)
    rintro ⟨name, hname, hmissing⟩
    exact hmissing (ofOutput_eq_none_iff.mp hproblem name hname)
  | some problem =>
    unfold ofOutput at hproblem
    split at hproblem
    · rename_i name hname
      split_ifs at hproblem with hmem
      obtain rfl := Option.some.inj hproblem
      have hmissing : name ∉ p.stepNames := by simpa using hmem
      exact .of_wrong ((wrong_outputOf_iff hp).mpr ⟨name, hname, hmissing⟩)
        (.unknownOutput hp hname)
    · cases hproblem

/-! ## §4 All spots -/

/-- The problems of a step are those of its spots. -/
theorem lists_step (hp : pipelines[i]? = some p) {done rest : List Step}
    (hsteps : p.steps = done ++ step :: rest) :
    Lists reserved known pipelines (·.AtStep i done.length)
      ((ofName reserved p.route done.length (done.map (·.name)) step.name).toList ++
        (ofUnit known p.route done.length step.uses).toList) := by
  refine (lists_ofName hp hsteps).append (lists_ofUnit hp (by simp [hsteps])) ?_
  rintro s t rfl rfl
  simp [Before, Spot.place, List.cons_lt_cons_iff]

/-- The problems of the steps from a place on are those of the spots of these steps. -/
theorem lists_ofSteps (hp : pipelines[i]? = some p) {done rest : List Step}
    (hsteps : p.steps = done ++ rest) :
    Lists reserved known pipelines (fun s => ∃ j, done.length ≤ j ∧ s.AtStep i j)
      (ofSteps reserved known p.route done.length (done.map (·.name)) rest) := by
  induction rest generalizing done with
  | nil =>
    -- There is no step at a place behind the last one.
    have hnone : ∀ {p' k step}, pipelines[i]? = some p' → done.length ≤ k →
        p'.steps[k]? ≠ some step := by
      intro p' k step hp' hk hstep
      obtain rfl := Option.some.inj (hp.symm.trans hp')
      rw [hsteps, List.append_nil, List.getElem?_eq_none hk] at hstep
      cases hstep
    refine .nil ?_
    rintro s ⟨k, hk, rfl | rfl⟩ ⟨p', step, hp', hstep, -⟩
    · exact hnone hp' hk hstep
    · exact hnone hp' hk hstep
  | cons step rest ih =>
    have hnext : p.steps = (done ++ [step]) ++ rest := by simp [hsteps]
    have hrest := ih hnext
    rw [List.length_append, List.map_append] at hrest
    refine ((lists_step hp hsteps).append hrest ?_).congr fun s => ?_
    · rintro s t hs ⟨k, hk, ht⟩
      exact Spot.before_of_step_lt hs ht hk
    · constructor
      · rintro (h | ⟨k, hk, h⟩)
        · exact ⟨_, Nat.le_refl _, h⟩
        · exact ⟨k, Nat.le_of_lt hk, h⟩
      · rintro ⟨k, hk, h⟩
        rcases Nat.eq_or_lt_of_le hk with rfl | hk
        · exact .inl h
        · exact .inr ⟨k, hk, h⟩

/-- The problems with a route are those of its spots. -/
theorem lists_ofRoute {done rest : List Pipeline} (hpipelines : pipelines = done ++ p :: rest) :
    Lists reserved known pipelines (fun s => s = .routeOf done.length ∨ s = .repeatOf done.length)
      (ofRoute (done.map (·.route)) p.route) := by
  refine (lists_emptyRoute (by simp [hpipelines])).append (lists_repeatedRoute hpipelines) ?_
  rintro s t rfl rfl
  simp [Before, Spot.place, List.cons_lt_cons_iff]

/-- The problems of a pipeline are those of its spots. -/
theorem lists_ofPipeline {done rest : List Pipeline} (hpipelines : pipelines = done ++ p :: rest) :
    Lists reserved known pipelines (·.pipeline = done.length)
      (ofPipeline reserved known (done.map (·.route)) p) := by
  have hp : pipelines[done.length]? = some p := by simp [hpipelines]
  have hsteps : Lists reserved known pipelines (fun s => ∃ j, s.AtStep done.length j)
      (ofSteps reserved known p.route 0 [] p.steps) :=
    (lists_ofSteps hp (List.nil_append _).symm).congr fun s => by simp
  refine (((lists_ofRoute hpipelines).append hsteps ?_).append (lists_ofOutput hp) ?_).congr
    fun s => ?_
  · rintro s t (rfl | rfl) ⟨j, rfl | rfl⟩ <;> simp [Before, Spot.place, List.cons_lt_cons_iff]
  · rintro s t ((rfl | rfl) | ⟨j, rfl | rfl⟩) rfl <;>
        simp [Before, Spot.place, List.cons_lt_cons_iff]
  · cases s <;> simp [Spot.AtStep, Spot.pipeline]

/-- The problems of the pipelines from a place on are those of their spots. -/
theorem lists_ofPipelines {done rest : List Pipeline} (hpipelines : pipelines = done ++ rest) :
    Lists reserved known pipelines (done.length ≤ ·.pipeline)
      (ofPipelines reserved known (done.map (·.route)) rest) := by
  induction rest generalizing done with
  | nil =>
    -- There is no pipeline at a place behind the last one.
    refine .nil fun s hs hwrong => ?_
    obtain ⟨p, hp⟩ := hwrong.exists_pipeline
    rw [hpipelines, List.append_nil, List.getElem?_eq_none hs] at hp
    cases hp
  | cons p rest ih =>
    have hnext : pipelines = (done ++ [p]) ++ rest := by simp [hpipelines]
    have hrest := ih hnext
    rw [List.length_append, List.map_append] at hrest
    refine ((lists_ofPipeline hpipelines).append hrest ?_).congr fun s => ?_
    · intro s t hs ht
      exact Spot.before_of_pipeline_lt (hs ▸ ht)
    · rw [List.length_singleton]
      omega

/-- **The problems of pipelines** are those of their wrong spots, one for each and in order. -/
theorem exists_listed (reserved : List String) (known : String → Bool) (pipelines : List Pipeline) :
    ∃ listed : List Spot, listed.Pairwise Before ∧
      (∀ s, s ∈ listed ↔ s.Wrong reserved known pipelines) ∧
      List.Forall₂ (ReportedAs reserved pipelines) listed (find reserved known pipelines) := by
  have hall : Lists reserved known pipelines (0 ≤ ·.pipeline) (find reserved known pipelines) :=
    lists_ofPipelines (List.nil_append pipelines).symm
  obtain ⟨listed, hsorted, hmem, hreported⟩ := hall
  exact ⟨listed, hsorted, fun s => (hmem s).trans (and_iff_right (Nat.zero_le _)), hreported⟩

/-- Of a missing, a reserved and a repeated name each is one problem, also if it is several of
these; and what comes later is checked all the same. -/
example : find ["input"] (· == "echo")
    [⟨⟨"echo", ""⟩, [⟨"", "echo", [], ""⟩, ⟨"", "none", [], ""⟩, ⟨"input", "echo", [], ""⟩,
        ⟨"input", "echo", [], ""⟩, ⟨"a", "echo", [], ""⟩, ⟨"a", "echo", [], ""⟩], some "", ""⟩,
      ⟨⟨"echo", ""⟩, [], some "a", ""⟩] =
    [.emptyRoute ⟨"echo", ""⟩, .emptyName ⟨"echo", ""⟩ 0, .emptyName ⟨"echo", ""⟩ 1,
      .unknownUnit ⟨"echo", ""⟩ 1 "none", .reservedName ⟨"echo", ""⟩ 2 "input",
        .reservedName ⟨"echo", ""⟩ 3 "input", .repeatedName ⟨"echo", ""⟩ 5 "a",
      .emptyRoute ⟨"echo", ""⟩, .repeatedRoute ⟨"echo", ""⟩, .unknownOutput ⟨"echo", ""⟩ "a"] := by
  decide

end PipelineProblem

/-! ## §5 Tables -/

/-- **No unit fails to be built**: no factory raises when it is asked for the unit of its name. -/
def Catalog.Buildable (catalog : Catalog) : Prop :=
  ∀ name entry factory made, catalog.find? name = some entry → entry.source = .built factory made →
    ∀ attempt, ∃ unit, factory attempt entry.config = .ok unit

/-- Looking a unit up in such a catalog gives what there is, and none fails to
be built afterwards. -/
theorem Catalog.Buildable.get {catalog : Catalog} (h : catalog.Buildable) (name : String) :
    ∃ unit catalog', catalog.get name = (.ok unit, catalog') ∧ catalog'.Buildable := by
  unfold Catalog.get
  cases hentry : catalog.find? name with
  | none => exact ⟨none, catalog, rfl, h⟩
  | some entry =>
    cases hsource : entry.source with
    | given unit => exact ⟨some unit, catalog, by simp only [hsource], h⟩
    | built factory made =>
      cases made with
      | some unit => exact ⟨some unit, catalog, by simp only [hsource], h⟩
      | none =>
        obtain ⟨unit, hunit⟩ := h name entry factory none hentry hsource catalog.builds.length
        refine ⟨unit, setSource { catalog with builds := catalog.builds ++ [entry.config] } name
          (.built factory unit), by simp only [hsource, hunit], ?_⟩
        -- Only the entry of the name has changed, and its factory is the same.
        intro other entry' factory' made' hentry' hsource' attempt
        rw [find?_setSource, find?_of_entries rfl] at hentry'
        obtain ⟨old, hold, rfl⟩ := Option.map_eq_some_iff.mp hentry'
        split_ifs at hsource' ⊢ with hname
        · obtain rfl : other = name := (name_of_find? hold).symm.trans (by simpa using hname)
          obtain rfl := Option.some.inj (hentry.symm.trans hold)
          obtain ⟨rfl, -⟩ := UnitSource.built.inj hsource'
          exact h _ _ _ _ hentry hsource attempt
        · exact h _ _ _ _ hold hsource' attempt

namespace PipelineTable

variable {catalog catalog' : Catalog} {pipelines : List Pipeline} {reserved : List String}
  {table : PipelineTable} {route : Route} {pipeline : Pipeline}

/-- If no unit fails to be built, all that are in use can be looked up. -/
theorem capture_of_buildable (h : catalog.Buildable) (names : List String) :
    ∃ units catalog', capture catalog names = (.ok units, catalog') := by
  induction names generalizing catalog with
  | nil => exact ⟨[], catalog, rfl⟩
  | cons name rest ih =>
    obtain ⟨unit, between, hget, hbetween⟩ := h.get name
    obtain ⟨units, last, hrest⟩ := ih hbetween
    exact ⟨(name, unit) :: units, last, by simp only [capture, hget, hrest]⟩

/-- **A built table serves** all its pipelines, each under its own route, and no others. -/
theorem find?_iff_of_build (h : build catalog pipelines reserved = (.ok table, catalog')) :
    table.find? route = some pipeline ↔ pipeline ∈ pipelines ∧ pipeline.route = route := by
  obtain ⟨hfind, units, -, rfl⟩ := build_ok h
  have hdistinct : ((pipelines.map fun p => (p.route, p)).map (·.1)).Nodup := by
    rw [List.map_map]
    exact (PipelineProblem.find_eq_nil_iff.mp hfind).2
  rw [find?, RouteMap.find?_ofList_iff hdistinct, List.mem_map]
  constructor
  · rintro ⟨p, hp, heq⟩
    obtain ⟨rfl, rfl⟩ := Prod.mk.inj heq
    exact ⟨hp, rfl⟩
  · rintro ⟨hp, rfl⟩
    exact ⟨pipeline, hp, rfl⟩

/-- Pipelines without problems have a table, if no unit fails to be built. -/
theorem exists_build (hfind : PipelineProblem.find reserved catalog.contains pipelines = [])
    (h : catalog.Buildable) :
    ∃ table catalog', build catalog pipelines reserved = (.ok table, catalog') := by
  obtain ⟨units, catalog', hcapture⟩ := capture_of_buildable h (usedNames pipelines)
  refine ⟨⟨RouteMap.ofList (pipelines.map fun p => (p.route, p)), units⟩, catalog', ?_⟩
  unfold build
  rw [PipelineProblem.validate_of_nil hfind]
  simp only [hcapture]

/-- **The checks are exact, and nothing is lost.** Of some pipelines one problem is reported for
each spot that is wrong, in the order of the spots, with what is wrong there. The pipelines are
refused, with these problems, exactly if there is one. And if there is none and no unit fails to be
built, there is a table, which has under a route the pipeline of that route and nothing else. -/
theorem reports_wrong_or_serves_all (catalog : Catalog) (reserved : List String)
    (pipelines : List Pipeline) :
    ∃ (spots : List Spot) (problems : List PipelineProblem),
      spots.Pairwise Spot.Before ∧ (∀ s, s ∈ spots ↔ s.Wrong reserved catalog.contains pipelines) ∧
      List.Forall₂ (Spot.ReportedAs reserved pipelines) spots problems ∧
      PipelineProblem.validate reserved catalog.contains pipelines =
        (if problems = [] then .ok () else .error (.fault (PipelineProblem.fault problems))) ∧
      (problems = [] → catalog.Buildable →
        ∃ table catalog', build catalog pipelines reserved = (.ok table, catalog') ∧
          ∀ route pipeline, table.find? route = some pipeline ↔ pipeline ∈ pipelines ∧
            pipeline.route = route) := by
  obtain ⟨spots, hsorted, hmem, hreported⟩ :=
    PipelineProblem.exists_listed reserved catalog.contains pipelines
  refine ⟨spots, _, hsorted, hmem, hreported, ?_, fun hfind hbuildable => ?_⟩
  · split_ifs with hfind
    · exact PipelineProblem.validate_of_nil hfind
    · exact PipelineProblem.validate_of_ne_nil hfind
  · obtain ⟨table, catalog', hbuild⟩ := exists_build hfind hbuildable
    exact ⟨table, catalog', hbuild, fun _ _ => find?_iff_of_build hbuild⟩

/-- The catalog whose only unit echoes, and is built when it is first looked up. -/
def lazyCatalog : Catalog :=
  { entries := [{ name := "echo",
                  source := .built (fun _ _ => .ok (some (Units.probe "echo" Units.echo))) none }] }

theorem lazyCatalog_buildable : lazyCatalog.Buildable := by
  intro name entry factory made hentry hsource attempt
  obtain rfl : entry = _ := List.mem_singleton.mp (List.mem_of_find?_eq_some hentry)
  obtain ⟨rfl, -⟩ := UnitSource.built.inj hsource
  exact ⟨_, rfl⟩

/-- A pipeline of one step, and one without steps on another route. -/
def echoAndPass : List Pipeline :=
  [⟨⟨"echo", "once"⟩, [⟨"a", "echo", [], ""⟩], some "a", ""⟩, ⟨⟨"echo", "pass"⟩, [], none, ""⟩]

/-- Nothing is wrong with the two pipelines, and so a table serves both. -/
theorem reports_wrong_or_serves_all_echoAndPass :
    (∀ s : Spot, ¬ s.Wrong reservedNames lazyCatalog.contains echoAndPass) ∧ lazyCatalog.Buildable ∧
    ∃ table catalog', build lazyCatalog echoAndPass = (.ok table, catalog') ∧
      ∀ pipeline ∈ echoAndPass, table.find? pipeline.route = some pipeline := by
  obtain ⟨spots, problems, -, hmem, hreported, hvalidate, hserved⟩ :=
    reports_wrong_or_serves_all lazyCatalog reservedNames echoAndPass
  have hpasses : PipelineProblem.validate reservedNames lazyCatalog.contains echoAndPass =
      .ok () := by rfl
  have hnone : problems = [] := by
    by_contra hsome
    rw [hpasses, if_neg hsome] at hvalidate
    cases hvalidate
  subst hnone
  obtain rfl := List.forall₂_nil_right_iff.mp hreported
  obtain ⟨table, catalog', hbuild, htable⟩ := hserved rfl lazyCatalog_buildable
  refine ⟨fun s hwrong => ?_, lazyCatalog_buildable, table, catalog', hbuild,
    fun pipeline hpipeline => ?_⟩
  · cases (hmem s).mpr hwrong
  · exact (htable _ _).mpr ⟨hpipeline, rfl⟩

end PipelineTable

end Switchyard
