import Switchyard.Proofs.Settings.Malformed

/-!
# What is reported of malformed source

A step is compiled up to its first malformed source, and the error is caught around the whole
step. So of each step one source is told, however many are malformed, and these reports come in
the order in which the steps are declared. Nothing is missing from them exactly if no step has
two malformed sources.

Main statements: what becomes of all steps (`PipelineSettings.compileAll_tells`), and hence what is
reported and when it is all that is malformed (`Settings.reportsAll_iff`).
-/

namespace Switchyard

open Expression (IsAscii HasStray)

/-! ## §1 Problems -/

/-- What is told of source that is malformed. -/
def Binding.problem? (source : String) : Option String :=
  match Expression.parse source with
  | .error (.fault (.malformed what quoted position)) =>
    some ((Fault.malformed what quoted position).message.shown .empty)
  | _ => none

theorem Binding.isSome_problem?_iff {source : String} :
    (problem? source).isSome = true ↔ Malformed source := by
  unfold problem? Malformed
  split
  · rename_i what quoted position hparse
    exact iff_of_true rfl ⟨what, quoted, position, hparse⟩
  · rename_i hother
    refine iff_of_false (by simp) ?_
    rintro ⟨what, quoted, position, hparse⟩
    exact hother what quoted position hparse

instance : DecidablePred Binding.Malformed :=
  fun _ => decidable_of_iff _ Binding.isSome_problem?_iff

/-- Source whose tokens break the grammar is malformed. -/
theorem Binding.malformed_of_tokens {source : String} {ts : List Expression.Token}
    {fault : Expression.SourceFault} {position : Nat} (hts : Expression.tokens source = .ok ts)
    (htree : Expression.treeOf ts source.length = .error (.malformed fault position)) :
    Malformed source := by
  refine ⟨fault.message, .text source, .int position, ?_⟩
  rw [Expression.parse_of_tokens hts, htree]
  rfl

/-- The problem of a step with a source, if the source is malformed. -/
def StepSettings.problem? (route : Route) (index : Nat) (step : StepSettings) (source : String) :
    Option String :=
  (Binding.problem? source).map fun told =>
    PipelineProblem.stepText route index ++ " '" ++ step.name ++ "': " ++ told

/-- **The problems of a step**: one for each malformed source of its configuration, in order. -/
def StepSettings.problems (route : Route) (index : Nat) (step : StepSettings) : List String :=
  (Binding.sourcesOfEntries step.config).filterMap (step.problem? route index)

/-- The problems of the steps of a pipeline, step by step. -/
def PipelineSettings.problems (pipeline : PipelineSettings) : List (List String) :=
  pipeline.steps.mapIdx fun index step => step.problems pipeline.route index

/-- **The problems of settings**, step by step in the order of their declaration. -/
def Settings.problems (settings : Settings) : List (List String) :=
  settings.pipelines.flatMap PipelineSettings.problems

/-- How many sources of a step are malformed. -/
def StepSettings.malformedCount (step : StepSettings) : Nat :=
  (Binding.sourcesOfEntries step.config).countP fun source => Binding.Malformed source

theorem StepSettings.length_problems (step : StepSettings) (route : Route) (index : Nat) :
    (step.problems route index).length = step.malformedCount := by
  rw [problems, List.length_filterMap_eq_countP, malformedCount]
  congr 1
  funext source
  rw [problem?, Option.isSome_map, Bool.eq_iff_iff, Binding.isSome_problem?_iff, decide_eq_true_iff]

/-- The problems of settings are those of its steps. -/
theorem Settings.forall_mem_problems_iff (settings : Settings) (p : Nat → Prop) :
    (∀ problems ∈ settings.problems, p problems.length) ↔
      ∀ pipeline ∈ settings.pipelines, ∀ step ∈ pipeline.steps, p step.malformedCount := by
  simp only [Settings.problems, List.mem_flatMap, PipelineSettings.problems, List.mem_mapIdx]
  constructor
  · intro h pipeline hpipeline step hstep
    obtain ⟨index, hindex, rfl⟩ := List.mem_iff_getElem.mp hstep
    rw [← StepSettings.length_problems _ pipeline.route index]
    exact h _ ⟨pipeline, hpipeline, index, hindex, rfl⟩
  · rintro h problems ⟨pipeline, hpipeline, index, hindex, rfl⟩
    rw [StepSettings.length_problems]
    exact h pipeline hpipeline _ (List.getElem_mem hindex)

/-! ## §2 First problems -/

section

variable {α : Type} {xss : List (List α)}

theorem filterMap_head?_sublist_flatten : (xss.filterMap List.head?).Sublist xss.flatten := by
  induction xss with
  | nil => exact .slnil
  | cons xs rest ih =>
    cases xs with
    | nil => exact ih
    | cons x xs => exact (ih.trans (List.sublist_append_right xs _)).cons_cons x

theorem filterMap_head?_eq_nil_iff : xss.filterMap List.head? = [] ↔ xss.flatten = [] := by
  rw [List.filterMap_eq_nil_iff, List.flatten_eq_nil_iff]
  simp only [List.head?_eq_none_iff]

/-- **The heads of lists are all that is in them** exactly if no list has two items. -/
theorem filterMap_head?_eq_flatten_iff :
    xss.filterMap List.head? = xss.flatten ↔ ∀ xs ∈ xss, xs.length ≤ 1 := by
  induction xss with
  | nil => simp
  | cons xs rest ih =>
    match xs with
    | [] => simpa [List.filterMap_cons] using ih
    | [x] => simpa using ih
    | x :: y :: more =>
      refine iff_of_false ?_ (by simp)
      -- The other heads alone would have to be longer than all that the other lists have.
      intro h
      have hle : (rest.filterMap List.head?).length ≤ rest.flatten.length :=
        filterMap_head?_sublist_flatten.length_le
      have hlength := congrArg List.length h
      simp only [List.filterMap_cons, List.head?_cons, List.flatten_cons, List.length_append,
        List.length_cons] at hlength
      omega

end

/-! ## §3 Steps and pipelines -/

variable {cache : SourceCache}

/-- **A pipeline is what settings declare**: all of their steps in order, under their route. -/
structure PipelineSettings.CompiledAs (declared : PipelineSettings)
    (pipeline : Pipeline) : Prop where
  route : pipeline.route = declared.route
  output : pipeline.output = declared.output
  summary : pipeline.summary = declared.summary
  steps : List.Forall₂ StepSettings.CompiledAs declared.steps pipeline.steps

/-- No source of a step breaks the reader. -/
def StepSettings.Readable (step : StepSettings) : Prop :=
  ∀ source ∈ Binding.sourcesOfEntries step.config, ¬ HasStray source

/-- **What becomes of a step** with some problems: the first of them is told, or it is compiled. -/
def StepSettings.Becomes (step : StepSettings) (problems : List String)
    (result : Except String Step) : Prop :=
  match problems with
  | [] => ∃ compiled, result = .ok compiled ∧ step.CompiledAs compiled
  | problem :: _ => result = .error problem

/-- **What becomes of all**: of each the first problem is told, and if there are none all are what
they were declared as. -/
def Tells {α β : Type} (compiledAs : α → β → Prop) (declared : List α)
    (problems : List (List String)) (result : List β × List String) : Prop :=
  result.2 = problems.filterMap List.head? ∧
    (result.2 = [] → List.Forall₂ compiledAs declared result.1)

open Compilation (Reads)

/-- Sources that are read are no problems. -/
theorem StepSettings.filterMap_problem?_of_read (step : StepSettings) {sources : List String}
    (h : ∀ s ∈ sources, ∃ e, Expression.parse s = .ok e) (route : Route) (index : Nat) :
    sources.filterMap (step.problem? route index) = [] := by
  rw [List.filterMap_eq_nil_iff]
  intro s hs
  obtain ⟨e, he⟩ := h s hs
  simp [problem?, Binding.problem?, he]

/-- The first malformed source is the first problem. -/
theorem StepSettings.problems_of_malformed (step : StepSettings) {source what : String}
    {before after : List String} {quoted position : Value}
    (hsources : Binding.sourcesOfEntries step.config = before ++ source :: after)
    (hbefore : ∀ s ∈ before, ∃ e, Expression.parse s = .ok e)
    (hparse : Expression.parse source = .error (.fault (.malformed what quoted position)))
    (route : Route) (index : Nat) :
    ∃ more, step.problems route index =
      (PipelineProblem.stepText route index ++ " '" ++ step.name ++ "': " ++
      (Fault.malformed what quoted position).message.shown .empty) :: more := by
  rw [problems, hsources, List.filterMap_append, step.filterMap_problem?_of_read hbefore,
    List.nil_append, List.filterMap_cons]
  simp only [problem?, Binding.problem?, hparse, Option.map_some]
  exact ⟨_, rfl⟩

/-- **Compiling a step** tells the first of its problems, or gives what was declared. -/
theorem StepSettings.compile_tells {step : StepSettings} (hread : step.Readable)
    (route : Route) (index : Nat) (hcache : cache.Sound Expression.parse) :
    Reads [] (step.compile route index cache) (step.Becomes (step.problems route index)) := by
  obtain ⟨hsound, ⟨hnone, compiled, hok, hcompiled⟩ | ⟨what, source, position, hfirst, hok⟩ | ⟨d,
      hd, hfirst, -⟩⟩ :=
    step.compile_cases route index hcache
  · rw [StepSettings.problems,
      step.filterMap_problem?_of_read (Binding.firstFailure_eq_none_iff.mp hnone)]
    exact ⟨⟨_, hok, compiled, rfl, hcompiled⟩, hsound⟩
  · obtain ⟨before, source, after, hsources, hbefore, hfails⟩ :=
      Binding.firstFailure_eq_some_iff.mp hfirst
    obtain ⟨more, hproblems⟩ := step.problems_of_malformed hsources hbefore hfails route index
    rw [hproblems]
    exact ⟨⟨_, hok, rfl⟩, hsound⟩
  · -- A step that breaks has a source that does.
    obtain ⟨before, source, after, hsources, -, hstray⟩ := step.breaks_iff.mpr ⟨d, hd, hfirst⟩
    exact absurd hstray (hread source (by simp [hsources]))

/-- **Compiling steps** tells the first problem of each of them. -/
theorem StepSettings.compileAll_tells (route : Route) :
    ∀ {steps : List StepSettings} (index : Nat) {cache : SourceCache},
    (∀ step ∈ steps, step.Readable) → cache.Sound Expression.parse →
      Reads [] (StepSettings.compileAll route index steps cache)
        (Tells StepSettings.CompiledAs steps (steps.mapIdx fun i step =>
          step.problems route (index + i)))
  | [], _, _, _, hcache => .pure hcache ⟨rfl, fun _ => .nil⟩
  | step :: rest, index, _, hread, hcache => by
    obtain ⟨hfirst, hrest⟩ := List.forall_mem_cons.mp hread
    simp only [StepSettings.compileAll]
    refine (StepSettings.compile_tells hfirst route index hcache).bind
      fun compiled cache' hbecomes hcache' => ?_
    refine (compileAll_tells route (index + 1) hrest hcache').map ?_
    rintro ⟨steps, told⟩ ⟨htold, hsteps⟩
    -- The problems of the step come in front of those of the others.
    have hproblems : ((step :: rest).mapIdx fun i step => step.problems route (index + i)) =
        step.problems route index :: rest.mapIdx fun i step =>
          step.problems route (index + 1 + i) := by
      simp [List.mapIdx_cons, Nat.add_assoc, Nat.add_comm 1]
    rw [hproblems]
    unfold StepSettings.Becomes at hbecomes
    split at hbecomes
    · rename_i hnone
      obtain ⟨made, rfl, hmade⟩ := hbecomes
      rw [hnone]
      exact ⟨htold, fun hempty => .cons hmade (hsteps hempty)⟩
    · rename_i problem more hsome
      subst hbecomes
      rw [hsome]
      exact ⟨congrArg (problem :: ·) htold, fun hempty => by cases hempty⟩

/-- **Compiling pipelines** tells the first problem of each of their steps. -/
theorem PipelineSettings.compileAll_tells :
    ∀ {pipelines : List PipelineSettings} {cache : SourceCache},
    (∀ pipeline ∈ pipelines, ∀ step ∈ pipeline.steps, step.Readable) →
    cache.Sound Expression.parse →
      Reads [] (PipelineSettings.compileAll pipelines cache)
        (Tells PipelineSettings.CompiledAs pipelines (pipelines.flatMap PipelineSettings.problems))
  | [], _, _, hcache => .pure hcache ⟨rfl, fun _ => .nil⟩
  | pipeline :: rest, _, hread, hcache => by
    obtain ⟨hfirst, hrest⟩ := List.forall_mem_cons.mp hread
    simp only [PipelineSettings.compileAll]
    refine (StepSettings.compileAll_tells pipeline.route 0 hfirst hcache).bind ?_
    rintro ⟨steps, told⟩ cache' ⟨htold, hsteps⟩ hcache'
    refine (compileAll_tells hrest hcache').map ?_
    rintro ⟨others, more⟩ ⟨hmore, hothers⟩
    constructor
    · obtain rfl : told = _ := htold
      obtain rfl : more = _ := hmore
      simp [PipelineSettings.problems, List.filterMap_append]
    · intro hempty
      obtain ⟨hnone, hnothing⟩ := List.append_eq_nil_iff.mp hempty
      exact .cons ⟨rfl, rfl, rfl, hsteps hnone⟩ (hothers hnothing)

/-! ## §4 Settings -/

namespace Settings

variable {settings : Settings}

/-- Settings whose source is in ASCII. -/
def InAscii (settings : Settings) : Prop :=
  ∀ pipeline ∈ settings.pipelines, ∀ step ∈ pipeline.steps,
    ∀ source ∈ Binding.sourcesOfEntries step.config, IsAscii source

/-- The error of configuration that tells problems of steps. -/
def refusal (problems : List String) : Raised :=
  .fault (.ofProblems ("Invalid expressions in " ++ toString problems.length ++ " step(s)")
    problems)

/-- **What is reported of settings**: the first problem of each step, or the pipelines
are what was declared. -/
theorem compilePipelines_tells (hsize : 1 ≤ settings.engine.cacheSize)
    (hcache : cache.Sound Expression.parse) (hascii : settings.InAscii) :
    (settings.problems.filterMap List.head? = [] ∧
      ∃ pipelines, (settings.compilePipelines cache).1 = .ok pipelines ∧
      List.Forall₂ PipelineSettings.CompiledAs settings.pipelines pipelines) ∨
    (settings.problems.filterMap List.head? ≠ [] ∧
      (settings.compilePipelines cache).1 =
        .error (refusal (settings.problems.filterMap List.head?))) := by
  have hread : ∀ pipeline ∈ settings.pipelines, ∀ step ∈ pipeline.steps, step.Readable :=
    fun pipeline hpipeline step hstep source hsource =>
      (hascii pipeline hpipeline step hstep source hsource).not_hasStray
  have hall :=
    PipelineSettings.compileAll_tells hread (Cache.resize_of_sound hcache settings.engine.cacheSize)
  rw [compilePipelines, Compilation.run_bind, run_sizeCache hsize]
  simp only
  rw [Compilation.run_bind]
  generalize PipelineSettings.compileAll settings.pipelines _ = compiled at hall
  obtain ⟨result, cache'⟩ := compiled
  obtain ⟨⟨⟨pipelines, told⟩, hok, htold, hpipelines⟩, -⟩ := hall
  obtain rfl : result = .ok (pipelines, told) := hok
  obtain rfl : told = settings.problems.filterMap List.head? := htold
  simp only [List.isEmpty_iff]
  split_ifs with hempty
  · exact .inl ⟨hempty, pipelines, rfl, hpipelines hempty⟩
  · exact .inr ⟨hempty, rfl⟩

/-- **All malformed source is reported**: if there is any, by one problem for each, in the order of
the declarations; and if there is none, the pipelines are what was declared. -/
structure ReportsAll (settings : Settings) (result : Except Raised (List Pipeline)) : Prop where
  refused : settings.problems.flatten ≠ [] →
    ∃ message, result = .error (.fault (.ofProblems message settings.problems.flatten))
  compiled : settings.problems.flatten = [] →
    ∃ pipelines, result = .ok pipelines ∧
      List.Forall₂ PipelineSettings.CompiledAs settings.pipelines pipelines

/-- Some source in the steps of settings is malformed. -/
def HasMalformed (settings : Settings) : Prop :=
  ∃ pipeline ∈ settings.pipelines, ∃ step ∈ pipeline.steps,
    ∃ source ∈ Binding.sourcesOfEntries step.config,
    Binding.Malformed source

/-- There are no problems exactly if nothing is malformed. -/
theorem problems_eq_nil_iff : settings.problems.flatten = [] ↔ ¬ settings.HasMalformed := by
  have hcounts := settings.forall_mem_problems_iff (· = 0)
  simp only [List.length_eq_zero_iff, ← List.flatten_eq_nil_iff] at hcounts
  rw [hcounts]
  simp [HasMalformed, StepSettings.malformedCount, List.countP_eq_zero]

/-- Problems can be told from the error that reports them. -/
theorem ofProblems_inj {message message' : String} {problems problems' : List String}
    (h : Fault.ofProblems message problems = Fault.ofProblems message' problems') :
    problems = problems' := by
  obtain ⟨-, hproblems⟩ := Fault.configuration.inj h
  exact List.map_injective_iff.mpr (fun _ _ h => Scalar.text.inj (Value.atom.inj h)) hproblems

/-- All malformed source is reported exactly if the first problems of the steps are
all of their problems. -/
theorem reportsAll_iff_firstProblems (hsize : 1 ≤ settings.engine.cacheSize)
    (hcache : cache.Sound Expression.parse) (hascii : settings.InAscii) :
    settings.ReportsAll (settings.compilePipelines cache).1 ↔
      settings.problems.filterMap List.head? = settings.problems.flatten := by
  rcases compilePipelines_tells hsize hcache hascii
      with ⟨hnone, pipelines, hok, hpipelines⟩ | ⟨hsome, herror⟩
  · have hflat := filterMap_head?_eq_nil_iff.mp hnone
    rw [hnone, hflat]
    exact iff_of_true ⟨fun h => absurd hflat h, fun _ => ⟨pipelines, hok, hpipelines⟩⟩ rfl
  · have hflat := mt filterMap_head?_eq_nil_iff.mpr hsome
    constructor
    · intro hall
      obtain ⟨message, htold⟩ := hall.refused hflat
      exact ofProblems_inj (Raised.fault.inj (Except.error.inj (herror.symm.trans htold)))
    · intro hfirst
      exact ⟨fun _ => ⟨_, herror.trans (by rw [hfirst, refusal])⟩, fun h => absurd h hflat⟩

/-- **What is reported of settings** whose source is in ASCII: they are refused exactly if some
source in their steps is malformed, and then the first problem of each step is told, in the
order of the declarations; else the pipelines are what was declared. All malformed source is
reported exactly if no step has more than one. The cache has room for an expression in all
settings that pass their check. -/
theorem reportsAll_iff (hsize : 1 ≤ settings.engine.cacheSize)
    (hcache : cache.Reachable Expression.parse) (hascii : settings.InAscii) :
    ((∃ e, (settings.compilePipelines cache).1 = .error e) ↔ settings.HasMalformed) ∧
    (∀ e, (settings.compilePipelines cache).1 = .error e →
      e = refusal (settings.problems.filterMap List.head?)) ∧
    (∀ pipelines, (settings.compilePipelines cache).1 = .ok pipelines →
      List.Forall₂ PipelineSettings.CompiledAs settings.pipelines pipelines) ∧
    (settings.ReportsAll (settings.compilePipelines cache).1 ↔
      ∀ pipeline ∈ settings.pipelines, ∀ step ∈ pipeline.steps, step.malformedCount ≤ 1) := by
  refine ⟨?_, ?_, ?_, ?_⟩
  · rcases compilePipelines_tells hsize hcache.sound hascii
        with ⟨hnone, pipelines, hok, -⟩ | ⟨hsome, herror⟩
    · refine iff_of_false ?_ (problems_eq_nil_iff.mp (filterMap_head?_eq_nil_iff.mp hnone))
      rintro ⟨e, he⟩
      cases hok.symm.trans he
    · rw [ne_eq, filterMap_head?_eq_nil_iff, problems_eq_nil_iff, not_not] at hsome
      exact iff_of_true ⟨_, herror⟩ hsome
  · intro e he
    rcases compilePipelines_tells hsize hcache.sound hascii
        with ⟨-, pipelines, hok, -⟩ | ⟨-, herror⟩
    · cases hok.symm.trans he
    · exact Except.error.inj (he.symm.trans herror)
  · intro pipelines hpipelines
    rcases compilePipelines_tells hsize hcache.sound hascii
        with ⟨-, compiled, hok, hcompiled⟩ | ⟨-, herror⟩
    · obtain rfl := Except.ok.inj (hok.symm.trans hpipelines)
      exact hcompiled
    · cases herror.symm.trans hpipelines
  · rw [reportsAll_iff_firstProblems hsize hcache.sound hascii, filterMap_head?_eq_flatten_iff]
    exact settings.forall_mem_problems_iff (· ≤ 1)

/-- Settings with one pipeline of one step, whose configuration holds two expressions. -/
def twoSources (first second : String) : Settings where
  pipelines := [{
    route := ⟨"svc", "x"⟩
    steps := [{
      name := "s"
      uses := "expr"
      config :=
        [(.text "first", .atom (.marker first)), (.text "second", .atom (.marker second))] }] }]

theorem malformed_openSum : Binding.Malformed "input +" := by
  have htokens : Expression.tokens "input +" = .ok [⟨.name "input", 0, 5⟩, ⟨.plus, 6, 7⟩] := by cbv
  exact Binding.malformed_of_tokens htokens rfl

theorem malformed_openGroup : Binding.Malformed "(a" := by
  have htokens : Expression.tokens "(a" = .ok [⟨.opening, 0, 1⟩, ⟨.name "a", 1, 2⟩] := by cbv
  exact Binding.malformed_of_tokens htokens rfl

/-- A malformed source beside another one that is not is reported, and so all is. -/
theorem reportsAll_iff_oneOfTwo :
    1 ≤ (twoSources "input" "(a").engine.cacheSize ∧ (twoSources "input" "(a").InAscii ∧
      (twoSources "input" "(a").ReportsAll ((twoSources "input" "(a").compilePipelines {}).1 := by
  have hcache : Cache.Reachable Expression.parse ({} : SourceCache) := .empty true (by decide)
  have hsize : 1 ≤ (twoSources "input" "(a").engine.cacheSize := by decide
  have hascii : (twoSources "input" "(a").InAscii := by
    simp [InAscii, twoSources, Binding.sourcesOfEntries, Binding.sources, IsAscii]
  refine ⟨hsize, hascii, (reportsAll_iff hsize hcache hascii).2.2.2.mpr ?_⟩
  have hinput : Expression.parse "input" = .ok ⟨"input", .path [.name "input"]⟩ := by cbv
  have hread : ¬ Binding.Malformed "input" := by
    rintro ⟨what, quoted, position, hmalformed⟩
    cases hinput.symm.trans hmalformed
  simp [twoSources, StepSettings.malformedCount, Binding.sourcesOfEntries, Binding.sources, hread,
    malformed_openGroup]

/-- **Not all malformed source is reported**: of two in a step the second one is not. -/
theorem not_forall_reportsAll :
    ¬ ∀ (settings : Settings) (cache : SourceCache), 1 ≤ settings.engine.cacheSize →
    cache.Reachable Expression.parse →
      settings.InAscii → settings.ReportsAll (settings.compilePipelines cache).1 := by
  intro hall
  have hcache : Cache.Reachable Expression.parse ({} : SourceCache) := .empty true (by decide)
  have hsize : 1 ≤ (twoSources "input +" "(a").engine.cacheSize := by decide
  have hascii : (twoSources "input +" "(a").InAscii := by
    simp [InAscii, twoSources, Binding.sourcesOfEntries, Binding.sources, IsAscii]
  have hreports := hall (twoSources "input +" "(a") {} hsize hcache hascii
  rw [reportsAll_iff_firstProblems hsize hcache.sound hascii, filterMap_head?_eq_flatten_iff]
    at hreports
  have hcounts := ((twoSources "input +" "(a").forall_mem_problems_iff (· ≤ 1)).mp hreports
  simp [twoSources, StepSettings.malformedCount, Binding.sourcesOfEntries, Binding.sources,
    malformed_openSum, malformed_openGroup] at hcounts

end Settings

end Switchyard
