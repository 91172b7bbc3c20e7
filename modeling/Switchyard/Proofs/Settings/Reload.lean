import Switchyard.Proofs.Binding.Oblivious
import Switchyard.Proofs.Dispatch.Isolation
import Switchyard.Proofs.Pipeline.Rebuild
import Switchyard.Proofs.Settings.Served

/-!
# Reloading from settings

A dispatcher that is reloaded from other settings serves what a new one would that is built from
them, within its own limits; or the reload fails as the building would, and everything is served as
before. The cache of expressions, which the reload resizes and fills and which others use as well,
makes no difference to that.

Main statement: `reload_all_or_rebuild`.
-/

namespace Switchyard

open Compilation (Oblivious)

/-! ## §1 Settings do not show the cache -/

theorem StepSettings.compile_oblivious (step : StepSettings) (route : Route) (index : Nat) :
    Oblivious (step.compile route index) := by
  unfold compile
  apply Oblivious.tryCatch
  · have hmake : Oblivious (Step.make step.name step.uses (.map step.config) step.summary) :=
      (Binding.compileRecord_oblivious _).bind fun _ => .pure _
    exact hmake.bind fun _ => .pure _
  · intro e
    split
    · exact .pure _
    · exact .throw _

theorem StepSettings.compileAll_oblivious (route : Route) (index : Nat)
    (steps : List StepSettings) : Oblivious (StepSettings.compileAll route index steps) := by
  induction steps generalizing index with
  | nil => exact .pure _
  | cons step rest ih =>
    exact (step.compile_oblivious route index).bind fun _ => (ih (index + 1)).bind fun _ => .pure _

theorem PipelineSettings.compileAll_oblivious (pipelines : List PipelineSettings) :
    Oblivious (PipelineSettings.compileAll pipelines) := by
  induction pipelines with
  | nil => exact .pure _
  | cons pipeline rest ih =>
    exact (StepSettings.compileAll_oblivious pipeline.route 0 pipeline.steps).bind fun _ =>
      ih.bind fun _ => .pure _

namespace Settings

variable (settings : Settings) (catalog : Catalog)

/-- Sizing the cache fails or not whatever the cache holds. -/
theorem sizeCache_oblivious : Oblivious settings.sizeCache := by
  have hsound : ∀ cache : SourceCache, cache.Sound Expression.parse →
      (cache.resize settings.engine.cacheSize).2.Sound Expression.parse :=
    fun cache hcache => Cache.resize_of_sound hcache settings.engine.cacheSize
  by_cases hsize : settings.engine.cacheSize < 1
  · refine ⟨.error (.refused "ValueError"
      ("max_entries must be positive, got " ++ toString settings.engine.cacheSize)), ?_⟩
    intro cache hcache
    exact ⟨_, Prod.ext (by rw [sizeCache, Cache.resize, if_pos hsize]) rfl, hsound cache hcache⟩
  · refine ⟨.ok (), ?_⟩
    intro cache hcache
    exact ⟨_, Prod.ext (by rw [sizeCache, Cache.resize, if_neg hsize]) rfl, hsound cache hcache⟩

theorem compilePipelines_oblivious : Oblivious settings.compilePipelines := by
  apply settings.sizeCache_oblivious.bind
  intro _
  apply (PipelineSettings.compileAll_oblivious settings.pipelines).bind
  rintro ⟨pipelines, problems⟩
  show Oblivious (if problems.isEmpty then _ else _)
  split
  · exact .pure _
  · exact .throw _

/-- **The table of settings** does not show the cache. -/
theorem routeTable_oblivious : Oblivious (settings.routeTable catalog) := by
  apply settings.compilePipelines_oblivious.bind
  intro pipelines
  split
  · exact .pure _
  · exact .throw _

end Settings

/-! ## §2 Reloads -/

/-- A dispatcher at work, and the cache that expressions are read through. -/
structure Host where
  dispatcher : Dispatcher
  service : Service
  cache : SourceCache

/-- Reloads from settings, with the units of a catalog. If that fails only the cache has changed. -/
def Host.reload (host : Host) (settings : Settings) (catalog : Catalog) :
    Except Raised Unit × Host :=
  match host.service.adopt settings catalog host.cache with
  | (.ok service, cache) => (.ok (), { host with service, cache })
  | (.error e, cache) => (.error e, { host with cache })

/-- The catalog that a reload from settings, or the building of a dispatcher, leaves. -/
def Settings.catalogAfter (settings : Settings) (catalog : Catalog)
    (cache : SourceCache) : Catalog :=
  match settings.compilePipelines cache with
  | (.ok pipelines, _) => (PipelineTable.build catalog.addBuiltins pipelines).2
  | (.error _, _) => catalog.addBuiltins

/-- **Two dispatchers answer in the same way**: whatever happens from now on, all results are the
same, the same routes are told, and the world is left the same. -/
def AnswersAs (d : Dispatcher) (service : Service) (d' : Dispatcher) (service' : Service) : Prop :=
  ∀ events, (d.traffic service events).results = (d'.traffic service' events).results ∧
    (d.traffic service events).state.routeSummaries =
      (d'.traffic service' events).state.routeSummaries ∧
    (d.traffic service events).state.world = (d'.traffic service' events).state.world

theorem AnswersAs.refl (d : Dispatcher) (service : Service) : AnswersAs d service d service := by
  intro events
  exact ⟨rfl, rfl, rfl⟩

namespace Host

variable {host : Host} {settings : Settings} {catalog : Catalog} {cache' : SourceCache} {e : Raised}
  {table : ServedTable}

/-- A reload that fails changes the cache and nothing else. -/
theorem reload_of_error (h : settings.routeTable catalog host.cache = (.error e, cache')) :
    host.reload settings catalog = (.error e, { host with cache := cache' }) := by
  have hadopt : host.service.adopt settings catalog host.cache = (.error e, cache') := by
    rw [Service.adopt, Compilation.run_bind, h]
  rw [reload, hadopt]

/-- A reload that succeeds serves the table of the settings. -/
theorem reload_of_ok (h : settings.routeTable catalog host.cache = (.ok table, cache')) :
    host.reload settings catalog =
      (.ok (), { host with service := host.service.reload table, cache := cache' }) := by
  have hadopt : host.service.adopt settings catalog host.cache =
      (.ok (host.service.reload table), cache') := by
    rw [Service.adopt, Compilation.run_bind, h]
    rfl
  rw [reload, hadopt]

end Host

namespace Settings

variable {settings : Settings} {catalog : Catalog} {hooks : Hooks} {newId : Nat → String}
  {cache cache' : SourceCache}

theorem serve_of_error {e : Raised} (h : settings.routeTable catalog cache = (.error e, cache')) :
    settings.serve catalog hooks newId cache = (.error e, cache') := by
  rw [serve, Compilation.run_bind, h]

theorem serve_of_ok {table : ServedTable}
    (h : settings.routeTable catalog cache = (.ok table, cache')) :
    settings.serve catalog hooks newId cache =
      (.ok (⟨hooks, settings.engine.timeout.map fun x => .atom (.float x), settings.engine.offload,
        newId⟩, { table }), cache') := by
  rw [serve, Compilation.run_bind, h]
  rfl

/-- The table of settings comes out again from the catalog that its building left, if its
units are all there. -/
theorem routeTable_again {table : ServedTable}
    (h : settings.routeTable catalog cache = (.ok table, cache'))
    (hthere : ∀ entry ∈ table.pipelines.units, entry.2.isSome) :
    settings.routeTable (settings.catalogAfter catalog cache) cache = (.ok table, cache') := by
  obtain ⟨pipelines, built, catalog', hcompile, hbuild, rfl⟩ := routeTable_ok h
  have hafter : settings.catalogAfter catalog cache = catalog' := by
    unfold catalogAfter
    rw [hcompile]
    simp only [hbuild]
  rw [hafter, routeTable, Compilation.run_bind, hcompile]
  simp only [PipelineTable.build_again hbuild hthere]
  rfl

end Settings

/-! ## §3 All or nothing -/

/-- A dispatcher within the limits of another one. -/
def Dispatcher.withLimitsOf (d other : Dispatcher) : Dispatcher :=
  { d with timeout := other.timeout, offload := other.offload }

/-- **Reloading is all or nothing, and equals building anew**. If a reload fails, everything is
answered as before, and building a dispatcher from the same settings fails with the same error. If
it succeeds, a dispatcher can be built from these settings with the same units and hooks, and within
the old limits it answers everything in the same way as the reloaded one, from the same world on.
That is so whatever has become of the cache of expressions until the dispatcher is built, and also
if it is built from the catalog that the reload left, as long as no factory yielded nothing. -/
theorem reload_all_or_rebuild {host : Host} (hhost : host.cache.Reachable Expression.parse)
    (settings : Settings) (catalog : Catalog) {cache : SourceCache}
    (hcache : cache.Reachable Expression.parse) :
    (∀ e, (host.reload settings catalog).1 = .error e →
      AnswersAs (host.reload settings catalog).2.dispatcher (host.reload settings catalog).2.service
          host.dispatcher host.service ∧
        ∃ cache', settings.serve catalog host.dispatcher.hooks host.dispatcher.newId cache =
          (.error e, cache')) ∧
    ((host.reload settings catalog).1 = .ok () →
      ∃ d fresh cache',
        settings.serve catalog host.dispatcher.hooks host.dispatcher.newId cache =
          (.ok (d, fresh), cache') ∧
        AnswersAs (host.reload settings catalog).2.dispatcher
          (host.reload settings catalog).2.service (d.withLimitsOf host.dispatcher)
          { fresh with world := host.service.world.restored, received := host.service.received } ∧
        ((∀ entry ∈ fresh.table.pipelines.units, entry.2.isSome) →
          ∃ cache'', settings.serve (settings.catalogAfter catalog host.cache) host.dispatcher.hooks
            host.dispatcher.newId cache = (.ok (d, fresh), cache''))) := by
  -- Both depend on whether the settings have a table, and the cache does not show in that.
  have hoblivious : Oblivious (settings.routeTable catalog) := settings.routeTable_oblivious catalog
  cases htable : settings.routeTable catalog host.cache with
  | mk result between =>
    obtain ⟨cache', hserved, -⟩ := hoblivious.run htable hhost.sound hcache.sound
    cases result with
    | error e =>
      rw [Host.reload_of_error htable]
      refine ⟨?_, ?_⟩
      · intro e' he
        obtain rfl := Except.error.inj he
        exact ⟨AnswersAs.refl _ _, cache', Settings.serve_of_error hserved⟩
      · intro hok
        cases hok
    | ok table =>
      rw [Host.reload_of_ok htable]
      refine ⟨?_, ?_⟩
      · intro e he
        cases he
      · intro _
        refine ⟨_, _, cache', Settings.serve_of_ok hserved, AnswersAs.refl _ _, ?_⟩
        intro hthere
        have hagain : settings.routeTable (settings.catalogAfter catalog host.cache) host.cache =
            (.ok table, between) := Settings.routeTable_again htable hthere
        obtain ⟨cache'', hserved', -⟩ :=
          (settings.routeTable_oblivious _).run hagain hhost.sound hcache.sound
        exact ⟨cache'', Settings.serve_of_ok hserved'⟩

/-- A dispatcher that serves no route yet. -/
def idleHost : Host where
  dispatcher := { newId := fun _ => "id" }
  service := { table := .empty }
  cache := {}

/-- Settings with one route. -/
def greetingSettings : Settings where
  pipelines :=
    [{ route := ⟨"desk", "greet"⟩
       access := some { unauthenticated := true }
       steps := [{ name := "first", uses := "expr", config := [(.text "value", .text "hello")] }] }]

/-- Settings with a step whose unit nobody knows. -/
def lostSettings : Settings where
  pipelines := [{ route := ⟨"desk", "greet"⟩, steps := [{ name := "first", uses := "nobody" }] }]

/-- What reloading comes to for settings that cannot be served and for settings that can. -/
theorem reload_all_or_rebuild_at_desk :
    AnswersAs (idleHost.reload lostSettings {}).2.dispatcher
      (idleHost.reload lostSettings {}).2.service idleHost.dispatcher idleHost.service ∧
    ∃ d fresh cache', greetingSettings.serve {} {} (fun _ => "id") {} = (.ok (d, fresh), cache') ∧
      AnswersAs (idleHost.reload greetingSettings {}).2.dispatcher
        (idleHost.reload greetingSettings {}).2.service
        (d.withLimitsOf idleHost.dispatcher)
        { fresh with world := idleHost.service.world.restored,
                     received := idleHost.service.received } := by
  have hcache : Cache.Reachable Expression.parse ({} : SourceCache) := .empty true (by decide)
  have hlost : ∃ e, (idleHost.reload lostSettings {}).1 = .error e := ⟨_, rfl⟩
  have hgreeting : (idleHost.reload greetingSettings {}).1 = .ok () := rfl
  obtain ⟨e, he⟩ := hlost
  have hfails := (@reload_all_or_rebuild idleHost hcache lostSettings {} {} hcache).1 e he
  obtain ⟨d, fresh, cache', hserve, hanswers, -⟩ :=
    (@reload_all_or_rebuild idleHost hcache greetingSettings {} {} hcache).2 hgreeting
  exact ⟨hfails.1, d, fresh, cache', hserve, hanswers⟩

end Switchyard
