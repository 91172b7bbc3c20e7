import Switchyard.Proofs.Binding.Rendering
import Switchyard.Proofs.Expression.Stray
import Switchyard.Settings.Build

/-!
# Malformed source in settings

Malformed source in the steps of settings is reported: all of it together, as one error of
configuration. What breaks the reader instead is not reported but breaks the compilation. Within a
step that depends on the first source which is not read, since nothing behind it is looked at.

Main statements: which steps and pipelines break when they are compiled
(`StepSettings.compile_breaksIf`, `PipelineSettings.compileAll_breaksIf`), and which source and
which settings do (`read_or_refused_iff`).
-/

namespace Switchyard

open Expression (HasStray IsStray strayError)

/-! ## §1 The first failure -/

/-- The first of some sources that fails has only sources before it that do not. -/
theorem Binding.firstFailure_eq_some_iff {α : Type} {f : String → Except Raised α}
    {sources : List String} {e : Raised} :
    firstFailure f sources = some e ↔ ∃ before source after, sources = before ++ source :: after ∧
      (∀ s ∈ before, ∃ x, f s = .ok x) ∧ f source = .error e := by
  constructor
  · intro h
    obtain ⟨before, source, after, rfl, herror, hbefore⟩ := List.findSome?_eq_some_iff.mp h
    refine ⟨before, source, after, rfl, fun s hs => ?_, ?_⟩
    · have hnone := hbefore s hs
      cases hf : f s with
      | ok x => exact ⟨x, rfl⟩
      | error e' =>
        rw [hf] at hnone
        cases hnone
    · cases hf : f source with
      | ok x =>
        rw [hf] at herror
        cases herror
      | error e' =>
        rw [hf] at herror
        rw [Option.some.inj herror]
  · rintro ⟨before, source, after, rfl, hbefore, herror⟩
    rw [firstFailure_append, firstFailure_eq_none_iff.mpr hbefore]
    simp [firstFailure, herror]

/-! ## §2 Runs that break -/

variable {cache : SourceCache}

/-- **A run breaks or goes through**: it ends with the error of a stray character if something is
so, and else it succeeds and leaves a sound cache. -/
def Compilation.BreaksIf {α : Type} (p : Prop) (result : Except Raised α × SourceCache) : Prop :=
  (p ∧ ∃ d, IsStray d ∧ result.1 = .error (strayError d)) ∨
    (¬ p ∧ ∃ x, result.1 = .ok x ∧ result.2.Sound Expression.parse)

namespace Compilation.BreaksIf

variable {α β : Type} {p q : Prop}

theorem pure {x : α} (hcache : cache.Sound Expression.parse) :
    BreaksIf False ((pure x : Compilation α) cache) :=
  .inr ⟨not_false, x, rfl, hcache⟩

/-- Runs in a row break if one of them does. -/
theorem bind {x : Compilation α} {k : α → Compilation β} (h : BreaksIf p (x cache))
    (hk : ∀ y cache', cache'.Sound Expression.parse → BreaksIf q (k y cache')) :
    BreaksIf (p ∨ q) ((x >>= k) cache) := by
  rw [run_bind]
  rcases hx : x cache with ⟨r, cache'⟩
  rw [hx] at h
  rcases h with ⟨hp, d, hd, herror⟩ | ⟨hp, y, hy, hsound⟩
  · obtain rfl : r = .error (strayError d) := herror
    exact .inl ⟨.inl hp, d, hd, rfl⟩
  · obtain rfl : r = .ok y := hy
    rcases hk y cache' hsound with ⟨hq, herror⟩ | ⟨hq, z, hz⟩
    · exact .inl ⟨.inr hq, herror⟩
    · exact .inr ⟨not_or.mpr ⟨hp, hq⟩, z, hz⟩

theorem of_iff {result : Except Raised α × SourceCache} (h : BreaksIf p result) (hpq : p ↔ q) :
    BreaksIf q result :=
  propext hpq ▸ h

end Compilation.BreaksIf

open Compilation (BreaksIf)

/-! ## §3 Steps and pipelines -/

/-- **A step breaks** if the first of its sources that is not read has a stray character. -/
def StepSettings.Breaks (step : StepSettings) : Prop :=
  ∃ before source after, Binding.sourcesOfEntries step.config = before ++ source :: after ∧
    (∀ s ∈ before, ∃ e, Expression.parse s = .ok e) ∧ HasStray source

theorem StepSettings.breaks_iff (step : StepSettings) :
    step.Breaks ↔ ∃ d, IsStray d ∧
      Binding.firstFailure Expression.parse (Binding.sourcesOfEntries step.config) =
        some (strayError d) := by
  simp only [StepSettings.Breaks, Binding.firstFailure_eq_some_iff,
    ← Expression.parse_eq_strayError_iff]
  constructor
  · rintro ⟨before, source, after, hsources, hbefore, d, hd, hparse⟩
    exact ⟨d, hd, before, source, after, hsources, hbefore, hparse⟩
  · rintro ⟨d, hd, before, source, after, hsources, hbefore, hparse⟩
    exact ⟨before, source, after, hsources, hbefore, d, hd, hparse⟩

/-- **A step is what settings declare**: it has their name, their unit and their summary, and its
bindings render their configuration. -/
structure StepSettings.CompiledAs (declared : StepSettings) (step : Step) : Prop where
  name : step.name = declared.name
  uses : step.uses = declared.uses
  summary : step.summary = declared.summary
  bindings : Binding.RenderEntries declared.config step.bindings

/-- Making a step reads the sources of its configuration and gives what was declared. -/
theorem StepSettings.make_reads (step : StepSettings) (hcache : cache.Sound Expression.parse) :
    Compilation.Reads (Binding.sourcesOfEntries step.config)
      (Step.make step.name step.uses (.map step.config) step.summary cache) step.CompiledAs :=
  (Binding.compileEntries_renders step.config hcache).map fun _ hbindings =>
    ⟨rfl, rfl, rfl, hbindings⟩

/-- **How compiling a step ends** is told by the first of its sources that is not read:
without one it gives the step, of a malformed one it tells, and a stray character breaks it.
The cache stays sound. -/
theorem StepSettings.compile_cases (step : StepSettings) (route : Route) (index : Nat)
    (hcache : cache.Sound Expression.parse) :
    (step.compile route index cache).2.Sound Expression.parse ∧
    ((Binding.firstFailure Expression.parse (Binding.sourcesOfEntries step.config) = none ∧
      ∃ compiled, (step.compile route index cache).1 = .ok (.ok compiled) ∧
        step.CompiledAs compiled) ∨
    (∃ what source position, Binding.firstFailure Expression.parse
      (Binding.sourcesOfEntries step.config) =
        some (.fault (.malformed what source position)) ∧
      (step.compile route index cache).1 =
        .ok (.error (PipelineProblem.stepText route index ++ " '" ++ step.name ++
        "': " ++ (Fault.malformed what source position).message.shown .empty))) ∨
    (∃ d, IsStray d ∧
      Binding.firstFailure Expression.parse (Binding.sourcesOfEntries step.config) =
        some (strayError d) ∧
      (step.compile route index cache).1 = .error (strayError d))) := by
  have hmake : Compilation.Reads (Binding.sourcesOfEntries step.config)
      ((do pure (.ok (← Step.make step.name step.uses (.map step.config) step.summary)) :
        Compilation (Except String Step)) cache) fun result => ∃ compiled, result = .ok compiled ∧
          step.CompiledAs compiled :=
    (step.make_reads hcache).map fun compiled hcompiled => ⟨compiled, rfl, hcompiled⟩
  obtain ⟨hfollows, hsound⟩ := hmake
  rw [StepSettings.compile, Compilation.run_tryCatch]
  -- What the handler is given is the first failure of the sources, if there is one.
  generalize ((do pure (.ok (← Step.make step.name step.uses (.map step.config) step.summary)) :
    Compilation (Except String Step)) cache) = made at hfollows hsound
  obtain ⟨result, cache'⟩ := made
  unfold Binding.Follows at hfollows
  split at hfollows
  · rename_i e hfirst
    subst hfollows
    obtain ⟨source, -, hfails⟩ := Binding.exists_of_firstFailure hfirst
    rcases Expression.parse_cases source
        with ⟨-, d, hd, hparse⟩ | ⟨-, ⟨e', hparse⟩ | ⟨what, position, hparse⟩⟩
    · obtain rfl := Except.error.inj (hparse.symm.trans hfails)
      exact ⟨hsound, .inr (.inr ⟨d, hd, hfirst, rfl⟩)⟩
    · rw [hparse] at hfails
      cases hfails
    · obtain rfl := Except.error.inj (hparse.symm.trans hfails)
      exact ⟨hsound, .inr (.inl ⟨what, _, position, hfirst, rfl⟩)⟩
  · rename_i hnone
    obtain ⟨result', rfl, compiled, rfl, hcompiled⟩ := hfollows
    exact ⟨hsound, .inl ⟨hnone, compiled, rfl, hcompiled⟩⟩

/-- **Compiling a step** breaks if the step does, and else gives the step or what its
malformed source amounts to. -/
theorem StepSettings.compile_breaksIf (step : StepSettings) (route : Route) (index : Nat)
    (hcache : cache.Sound Expression.parse) :
    BreaksIf step.Breaks (step.compile route index cache) := by
  rw [BreaksIf, breaks_iff]
  obtain ⟨hsound, ⟨hnone, compiled, hok, -⟩ | ⟨what, source, position, hfirst, hok⟩ | ⟨d, hd,
      hfirst, herror⟩⟩ :=
    step.compile_cases route index hcache
  · exact .inr ⟨by simp [hnone], _, hok, hsound⟩
  · exact .inr ⟨by simp [hfirst, strayError], _, hok, hsound⟩
  · exact .inl ⟨⟨d, hd, hfirst⟩, d, hd, herror⟩

/-- Compiling steps breaks if one of them does. -/
theorem StepSettings.compileAll_breaksIf (route : Route) :
    ∀ (steps : List StepSettings) (index : Nat)
    {cache : SourceCache}, cache.Sound Expression.parse →
      BreaksIf (∃ step ∈ steps, step.Breaks) (StepSettings.compileAll route index steps cache)
  | [], _, _, hcache => (BreaksIf.pure hcache).of_iff (by simp)
  | step :: rest, index, _, hcache => by
    simp only [StepSettings.compileAll]
    refine BreaksIf.of_iff ?_ (List.exists_mem_cons_iff _ _ _).symm
    refine (step.compile_breaksIf route index hcache).bind fun compiled cache' hcache' => ?_
    exact ((compileAll_breaksIf route rest (index + 1) hcache').bind fun _ _ hcache'' =>
      .pure hcache'').of_iff (or_iff_left not_false)

/-- **Compiling pipelines** breaks if a step of one of them does. -/
theorem PipelineSettings.compileAll_breaksIf :
    ∀ (pipelines : List PipelineSettings) {cache : SourceCache},
    cache.Sound Expression.parse →
      BreaksIf (∃ pipeline ∈ pipelines, ∃ step ∈ pipeline.steps, step.Breaks)
        (PipelineSettings.compileAll pipelines cache)
  | [], _, hcache => (BreaksIf.pure hcache).of_iff (by simp)
  | pipeline :: rest, _, hcache => by
    simp only [PipelineSettings.compileAll]
    refine BreaksIf.of_iff ?_ (List.exists_mem_cons_iff _ _ _).symm
    refine (StepSettings.compileAll_breaksIf pipeline.route pipeline.steps 0 hcache).bind
      fun _ cache' hcache' => ?_
    exact ((compileAll_breaksIf rest hcache').bind fun _ _ hcache'' => .pure hcache'').of_iff
      (or_iff_left not_false)

/-! ## §4 Settings -/

/-- Parts that are put together pass their checks. -/
theorem Checked.join_ok_iff {α β : Type} {f : Checked (α → β)} {x : Checked α} {y : β} :
    f.join x = .ok y ↔ ∃ g a, f = .ok g ∧ x = .ok a ∧ g a = y := by
  rcases f with _ | g <;> rcases x with _ | a <;> simp [Checked.join]

/-- A field that may be missing has its default or has passed its check. -/
theorem Form.withDefault_ok {α : Type} {fields : Entries} {name : String} {default x : α}
    {check : Value → Checked α} (h : withDefault fields name default check = .ok x) :
    x = default ∨ ∃ v, check v = .ok x := by
  unfold withDefault at h
  split at h
  · rename_i v _
    cases hcheck : check v with
    | error issues =>
      rw [hcheck] at h
      cases h
    | ok y =>
      rw [hcheck] at h
      obtain rfl := Except.ok.inj h
      exact .inr ⟨v, hcheck⟩
  · exact .inl (Except.ok.inj h).symm

/-- An integer that passes the check of a least one is not less. -/
theorem Form.le_of_integerFrom {least n : Int} {v : Value} (h : integerFrom least v = .ok n) :
    least ≤ n := by
  unfold integerFrom at h
  split at h
  · split_ifs at h with hless
    · cases h
    · obtain rfl := Except.ok.inj h
      exact Int.not_lt.mp hless
  · cases h

/-- An engine that passes its check caches at least one expression. -/
theorem EngineSettings.one_le_cacheSize_of_check {v : Value} {engine : EngineSettings}
    (h : EngineSettings.check v = .ok engine) : 1 ≤ engine.cacheSize := by
  obtain ⟨fields, -, h⟩ := bind_ok_iff.mp h
  obtain ⟨_, _, hmode, -, rfl⟩ := Checked.join_ok_iff.mp h
  obtain ⟨_, _, hsized, -, rfl⟩ := Checked.join_ok_iff.mp hmode
  obtain ⟨_, size, htimed, hsize, rfl⟩ := Checked.join_ok_iff.mp hsized
  obtain ⟨_, _, hstart, -, rfl⟩ := Checked.join_ok_iff.mp htimed
  obtain rfl := Except.ok.inj hstart
  show 1 ≤ size
  rcases Form.withDefault_ok hsize with rfl | ⟨w, hw⟩
  · decide
  · exact Form.le_of_integerFrom hw

/-- **Settings that pass their check** have room for an expression in the cache. -/
theorem Settings.one_le_cacheSize_of_check {v : Value} {settings : Settings}
    (h : Settings.check v = .ok settings) : 1 ≤ settings.engine.cacheSize := by
  obtain ⟨fields, -, h⟩ := bind_ok_iff.mp h
  obtain ⟨_, _, hserved, -, rfl⟩ := Checked.join_ok_iff.mp h
  obtain ⟨_, engine, hversion, hengine, rfl⟩ := Checked.join_ok_iff.mp hserved
  obtain ⟨_, _, hstart, -, rfl⟩ := Checked.join_ok_iff.mp hversion
  obtain rfl := Except.ok.inj hstart
  show 1 ≤ engine.cacheSize
  rcases Form.withDefault_ok hengine with rfl | ⟨w, hw⟩
  · decide
  · exact EngineSettings.one_le_cacheSize_of_check hw

/-- An error of configuration. -/
def Raised.IsConfiguration (e : Raised) : Prop :=
  ∃ message problems, e = .fault (.configuration message problems)

/-- A size that is positive is taken on by the cache. -/
theorem Settings.run_sizeCache {settings : Settings} (hsize : 1 ≤ settings.engine.cacheSize)
    (cache : SourceCache) :
    settings.sizeCache cache = (.ok (), (cache.resize settings.engine.cacheSize).2) :=
  Prod.ext (by rw [sizeCache, Cache.resize, if_neg (by omega)]) rfl

/-- **Compiling the pipelines of settings** breaks if a step does, and else gives the pipelines or
reports problems of configuration. -/
theorem Settings.compilePipelines_cases (settings : Settings)
    (hsize : 1 ≤ settings.engine.cacheSize) (hcache : cache.Sound Expression.parse) :
    ((∃ pipeline ∈ settings.pipelines, ∃ step ∈ pipeline.steps, step.Breaks) ∧
      ∃ d, IsStray d ∧ (settings.compilePipelines cache).1 = .error (strayError d)) ∨
    (¬ (∃ pipeline ∈ settings.pipelines, ∃ step ∈ pipeline.steps, step.Breaks) ∧
      ((∃ pipelines, (settings.compilePipelines cache).1 = .ok pipelines) ∨
        ∃ e, (settings.compilePipelines cache).1 = .error e ∧ e.IsConfiguration)) := by
  have hsound := Cache.resize_of_sound hcache settings.engine.cacheSize
  rw [compilePipelines, Compilation.run_bind, run_sizeCache hsize]
  simp only
  rw [Compilation.run_bind]
  have hall := PipelineSettings.compileAll_breaksIf settings.pipelines hsound
  generalize PipelineSettings.compileAll settings.pipelines _ = compiled at hall
  obtain ⟨result, cache'⟩ := compiled
  rcases hall with ⟨hbreaks, d, hd, herror⟩ | ⟨hnot, ⟨pipelines, problems⟩, hok, -⟩
  · obtain rfl : result = .error (strayError d) := herror
    exact .inl ⟨hbreaks, d, hd, rfl⟩
  · obtain rfl : result = .ok (pipelines, problems) := hok
    refine .inr ⟨hnot, ?_⟩
    simp only
    split_ifs
    · exact .inl ⟨pipelines, rfl⟩
    · exact .inr ⟨_, rfl, _, _, rfl⟩

/-- **Which source and which settings break**: source is read or refused as malformed exactly if it
has no stray character where a token has to begin, and else it breaks the reader. The pipelines of
settings are compiled or problems of configuration are reported, whatever the cache has been
through, exactly if no step breaks, and else the compilation breaks as the reader does. The cache
has room for an expression in all settings that pass their check. -/
theorem read_or_refused_iff {settings : Settings} (hsize : 1 ≤ settings.engine.cacheSize)
    (hcache : cache.Reachable Expression.parse) :
    (∀ source, ((∃ e, Expression.parse source = .ok e) ∨ Binding.Malformed source) ↔
      ¬ HasStray source) ∧
    (∀ source, HasStray source → ∃ d, IsStray d ∧ Expression.parse source = .error (strayError d)) ∧
    (((∃ pipelines, (settings.compilePipelines cache).1 = .ok pipelines) ∨
        ∃ e, (settings.compilePipelines cache).1 = .error e ∧ e.IsConfiguration) ↔
      ∀ pipeline ∈ settings.pipelines, ∀ step ∈ pipeline.steps, ¬ step.Breaks) ∧
    ((∃ pipeline ∈ settings.pipelines, ∃ step ∈ pipeline.steps, step.Breaks) →
      ∃ d, IsStray d ∧ (settings.compilePipelines cache).1 = .error (strayError d)) := by
  refine ⟨fun source => ?_, fun source => Expression.parse_eq_strayError_iff.mpr, ?_,
    fun hbreaks => ?_⟩
  · rcases Expression.parse_cases source with ⟨hstray, d, -, hparse⟩ | ⟨hnot, hread⟩
    · -- The error of a stray character is none of form.
      refine iff_of_false ?_ (not_not.mpr hstray)
      rintro (⟨e, he⟩ | ⟨what, quoted, position, hmalformed⟩)
      · rw [hparse] at he
        cases he
      · rw [hparse] at hmalformed
        cases hmalformed
    · refine iff_of_true ?_ hnot
      rcases hread with hread | ⟨what, position, hmalformed⟩
      · exact .inl hread
      · exact .inr ⟨what, .text source, position, hmalformed⟩
  · rcases settings.compilePipelines_cases hsize hcache.sound
        with ⟨hbreaks, d, -, herror⟩ | ⟨hnot, hends⟩
    · refine iff_of_false ?_ (by simpa using hbreaks)
      rintro (⟨pipelines, hok⟩ | ⟨e, he, message, problems, rfl⟩)
      · rw [herror] at hok
        cases hok
      · rw [herror] at he
        cases he
    · exact iff_of_true hends (by simpa using hnot)
  · rcases settings.compilePipelines_cases hsize hcache.sound with ⟨-, herror⟩ | ⟨hnot, -⟩
    · exact herror
    · exact absurd hbreaks hnot

/-- Settings with one pipeline of one step, whose configuration holds one expression. -/
def oneSource (source : String) : Settings where
  pipelines := [{
    route := ⟨"svc", "x"⟩
    steps :=
      [{ name := "s", uses := "log", config := [(.text "message", .atom (.marker source))] }] }]

theorem read_or_refused_input :
    (∃ pipelines, ((oneSource "input").compilePipelines {}).1 = .ok pipelines) ∨
      ∃ e, ((oneSource "input").compilePipelines {}).1 = .error e ∧ e.IsConfiguration := by
  have hcache : Cache.Reachable Expression.parse ({} : SourceCache) := .empty true (by decide)
  have hsize : 1 ≤ (oneSource "input").engine.cacheSize := by decide
  obtain ⟨hread, -, hcompiled, -⟩ := read_or_refused_iff hsize hcache
  apply hcompiled.mpr
  rintro pipeline hpipeline step hstep ⟨before, source, after, hsources, -, hstray⟩
  obtain rfl := List.mem_singleton.mp hpipeline
  obtain rfl := List.mem_singleton.mp hstep
  -- The one source of the step can be read.
  have hsource : source = "input" := by
    have hmem : source ∈ ["input"] := by
      rw [show ["input"] = before ++ source :: after from hsources]
      simp
    exact List.mem_singleton.mp hmem
  have hparse : Expression.parse "input" = .ok ⟨"input", .path [.name "input"]⟩ := by cbv
  exact (hread source).mp (.inl ⟨_, hsource ▸ hparse⟩) hstray

theorem hasStray_accented : HasStray "é" :=
  ⟨[], 'é', [], rfl, by decide, [], by cbv⟩

/-- **Source that breaks**: a letter with an accent is neither read nor refused as malformed, and
settings with it are neither compiled nor reported. -/
theorem not_forall_read_or_refused :
    (¬ ∀ source, (∃ e, Expression.parse source = .ok e) ∨ Binding.Malformed source) ∧
    ¬ ∀ (settings : Settings) (cache : SourceCache), 1 ≤ settings.engine.cacheSize →
      cache.Reachable Expression.parse →
      (∃ pipelines, (settings.compilePipelines cache).1 = .ok pipelines) ∨
        ∃ e, (settings.compilePipelines cache).1 = .error e ∧ e.IsConfiguration := by
  have hparse : Expression.parse "é" = .error (strayError 'é') := by cbv
  refine ⟨fun hall => ?_, fun hall => ?_⟩
  · rcases hall "é" with ⟨e, he⟩ | ⟨what, quoted, position, hmalformed⟩
    · rw [hparse] at he
      cases he
    · rw [hparse] at hmalformed
      cases hmalformed
  · have hcache : Cache.Reachable Expression.parse ({} : SourceCache) := .empty true (by decide)
    have hsize : 1 ≤ (oneSource "é").engine.cacheSize := by decide
    have hends := hall (oneSource "é") {} hsize hcache
    rcases (oneSource "é").compilePipelines_cases hsize hcache.sound
        with ⟨-, d, -, herror⟩ | ⟨hnot, -⟩
    · rcases hends with ⟨pipelines, hok⟩ | ⟨e, he, message, problems, rfl⟩
      · rw [herror] at hok
        cases hok
      · rw [herror] at he
        cases he
    · refine hnot ⟨_, List.mem_singleton_self _, _, List.mem_singleton_self _, [], "é", [], rfl, ?_,
        hasStray_accented⟩
      exact fun s hs => by cases hs

end Switchyard
