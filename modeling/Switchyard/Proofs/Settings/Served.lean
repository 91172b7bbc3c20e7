import Switchyard.Proofs.Binding.Compilation
import Switchyard.Proofs.Pipeline.Checked
import Switchyard.Settings.Build

/-!
# What settings are served with

Settings that can be served are compiled to pipelines with the routes that they declare, each once,
and the table of these pipelines is served behind the gate of the settings.

Main statements: what a dispatcher and its service are made of (`Settings.serve_ok`), and that every
declared route is served (`Settings.serve_routes`).
-/

namespace Switchyard

variable {cache cache' : SourceCache}

/-- Compiled pipelines have the routes that were declared, in the same order. -/
theorem PipelineSettings.routes_of_compileAll {declared : List PipelineSettings}
    {pipelines : List Pipeline} {problems : List String}
    (h : PipelineSettings.compileAll declared cache = (.ok (pipelines, problems), cache')) :
    pipelines.map (·.route) = declared.map (·.route) := by
  induction declared generalizing cache cache' pipelines problems with
  | nil =>
    obtain ⟨rfl, -⟩ := Prod.mk.inj (Except.ok.inj (Prod.mk.inj h).1)
    rfl
  | cons first rest ih =>
    obtain ⟨⟨steps, stepProblems⟩, cache₁, -, h⟩ := Compilation.run_bind_ok h
    obtain ⟨⟨others, more⟩, cache₂, hrest, h⟩ := Compilation.run_bind_ok h
    obtain ⟨rfl, -⟩ := Prod.mk.inj (Except.ok.inj (Prod.mk.inj h).1)
    rw [List.map_cons, List.map_cons, ih hrest]

namespace Settings

variable {settings : Settings} {catalog : Catalog}

/-- The pipelines of settings have the routes that were declared. -/
theorem routes_of_compilePipelines {pipelines : List Pipeline}
    (h : settings.compilePipelines cache = (.ok pipelines, cache')) :
    pipelines.map (·.route) = settings.pipelines.map (·.route) := by
  obtain ⟨-, cache₁, -, h⟩ := Compilation.run_bind_ok h
  obtain ⟨⟨compiled, problems⟩, cache₂, hall, h⟩ := Compilation.run_bind_ok h
  simp only at h
  split_ifs at h
  · obtain rfl := Except.ok.inj (Prod.mk.inj h).1
    exact PipelineSettings.routes_of_compileAll hall
  · cases (Prod.mk.inj h).1

/-- What the table that settings are served with is made of. -/
theorem routeTable_ok {table : ServedTable}
    (h : settings.routeTable catalog cache = (.ok table, cache')) :
    ∃ pipelines built catalog', settings.compilePipelines cache = (.ok pipelines, cache') ∧
      PipelineTable.build catalog.addBuiltins pipelines = (.ok built, catalog') ∧
        table = ⟨built, settings.gate⟩ := by
  obtain ⟨pipelines, cache₁, hcompile, h⟩ := Compilation.run_bind_ok h
  cases hbuild : PipelineTable.build catalog.addBuiltins pipelines with
  | mk result catalog' =>
    rw [hbuild] at h
    cases result with
    | error e => cases (Prod.mk.inj h).1
    | ok built =>
      obtain ⟨htable, rfl⟩ := Prod.mk.inj h
      exact ⟨pipelines, built, catalog', hcompile, hbuild, (Except.ok.inj htable).symm⟩

/-- **What settings are served with**: the dispatcher has the limits of the settings, and the
service begins with their table. -/
theorem serve_ok {hooks : Hooks} {newId : Nat → String} {d : Dispatcher} {service : Service}
    (h : settings.serve catalog hooks newId cache = (.ok (d, service), cache')) :
    ∃ table, settings.routeTable catalog cache = (.ok table, cache') ∧
      d = ⟨hooks, settings.engine.timeout.map fun x =>
        .atom (.float x), settings.engine.offload, newId⟩ ∧
      service = { table } := by
  obtain ⟨table, cache₁, htable, h⟩ := Compilation.run_bind_ok h
  obtain ⟨hpair, rfl⟩ := Prod.mk.inj h
  obtain ⟨rfl, rfl⟩ := Prod.mk.inj (Except.ok.inj hpair)
  exact ⟨table, htable, rfl, rfl⟩

/-- Settings that can be served declare each route once. -/
theorem distinct_of_serve {catalog : Catalog} {hooks : Hooks} {newId : Nat → String}
    {cache cache' : SourceCache} {d : Dispatcher} {service : Service}
    (h : settings.serve catalog hooks newId cache = (.ok (d, service), cache')) :
    (settings.pipelines.map (·.route)).Nodup := by
  obtain ⟨table, htable, -, -⟩ := serve_ok h
  obtain ⟨pipelines, built, catalog', hcompile, hbuild, -⟩ := routeTable_ok htable
  rw [← routes_of_compilePipelines hcompile]
  exact (PipelineProblem.find_eq_nil_iff.mp (PipelineTable.build_ok hbuild).1).2

/-- **What settings are served with**: each declared route with a pipeline, behind the
gate of the settings. -/
theorem serve_routes {catalog : Catalog} {hooks : Hooks} {newId : Nat → String}
    {cache cache' : SourceCache} {d : Dispatcher} {service : Service}
    (h : settings.serve catalog hooks newId cache = (.ok (d, service), cache')) :
    service.table.gate = settings.gate ∧
      ∀ declared ∈ settings.pipelines, ∃ pipeline, service.table.pipelines.find? declared.route =
        some pipeline := by
  have hdistinct := distinct_of_serve h
  obtain ⟨table, htable, -, rfl⟩ := serve_ok h
  obtain ⟨pipelines, built, catalog', hcompile, hbuild, rfl⟩ := routeTable_ok htable
  obtain ⟨-, units, -, rfl⟩ := PipelineTable.build_ok hbuild
  refine ⟨rfl, ?_⟩
  intro declared hdeclared
  have hroutes := routes_of_compilePipelines hcompile
  -- The compiled pipelines have the declared routes, so one of them has this route.
  have hmem : declared.route ∈ pipelines.map (·.route) := hroutes ▸ List.mem_map_of_mem hdeclared
  obtain ⟨pipeline, hpipeline, hroute⟩ := List.mem_map.mp hmem
  have hkeys : ((pipelines.map fun p => (p.route, p)).map (·.1)).Nodup := by
    simpa [Function.comp_def, hroutes] using hdistinct
  exact ⟨pipeline, (RouteMap.find?_ofList_iff hkeys).mpr
    (List.mem_map.mpr ⟨pipeline, hpipeline, by rw [hroute]⟩)⟩

end Settings

end Switchyard
