import Switchyard.PipelineTable
import Mathlib.Data.List.Nodup

/-!
# Pipelines that have been checked

What a table can rely on once its pipelines were found to have no problems: the names of the steps
are all different and none of them is reserved, the unit of every step is known and has been looked
up, and a designated output is the name of a step.

Main statements: pipelines have no problems exactly if each is in order and no route comes twice
(`find_eq_nil_iff`), and every pipeline that a built table serves is in order (`sound_of_build`).
-/

namespace Switchyard

/-- **A pipeline in order**, given the reserved names and the units that are known. -/
structure Pipeline.InOrder (reserved : List String) (known : String → Bool)
    (pipeline : Pipeline) : Prop where
  routeNamed : pipeline.route.interface ≠ "" ∧ pipeline.route.method ≠ ""
  named : ∀ step ∈ pipeline.steps, step.name ≠ "" ∧ step.name ∉ reserved
  distinct : pipeline.stepNames.Nodup
  known : ∀ step ∈ pipeline.steps, known step.uses = true
  output : ∀ name, pipeline.output = some name → name ∈ pipeline.stepNames

/-! ## §1 No problems -/

namespace PipelineProblem

variable {reserved : List String} {known : String → Bool}

theorem ofName_eq_none_iff {route : Route} {index : Nat} {before : List String} {name : String} :
    ofName reserved route index before name = none ↔ name ≠ "" ∧ name ∉ reserved ∧
      name ∉ before := by
  unfold ofName
  split_ifs with h₁ h₂ h₃ <;> simp_all

theorem ofUnit_eq_none_iff {route : Route} {index : Nat} {uses : String} :
    ofUnit known route index uses = none ↔ known uses = true := by
  unfold ofUnit
  split_ifs with h <;> simp [h]

theorem ofOutput_eq_none_iff {pipeline : Pipeline} :
    ofOutput pipeline = none ↔ ∀ name, pipeline.output = some name → name ∈ pipeline.stepNames := by
  unfold ofOutput
  split
  · rename_i output h
    split_ifs with hmem <;> simp_all
  · simp_all

theorem ofRoute_eq_nil_iff {before : List Route} {route : Route} :
    ofRoute before route = [] ↔ (route.interface ≠ "" ∧ route.method ≠ "") ∧ route ∉ before := by
  unfold ofRoute
  split_ifs with h₁ h₂ <;> grind

/-- Steps after others have no problems exactly if each is named and known and
no name comes again. -/
theorem ofSteps_eq_nil_iff {route : Route} {index : Nat} {before : List String}
    {steps : List Step} : ofSteps reserved known route index before steps = [] ↔
      (∀ step ∈ steps, step.name ≠ "" ∧ step.name ∉ reserved) ∧
        (∀ step ∈ steps, known step.uses = true) ∧
        (∀ step ∈ steps, step.name ∉ before) ∧ (steps.map (·.name)).Nodup := by
  induction steps generalizing index before with
  | nil => simp [ofSteps]
  | cons step rest ih =>
    simp only [ofSteps, List.append_eq_nil_iff, Option.toList_eq_nil_iff, ofName_eq_none_iff,
      ofUnit_eq_none_iff, ih, List.forall_mem_cons, List.map_cons, List.nodup_cons, List.mem_append,
        List.mem_singleton]
    -- What is left is that a name is new exactly if it is none of the earlier ones
    -- and not the one before.
    grind

/-- One pipeline has no problems exactly if it is in order and its route is new. -/
theorem ofPipeline_eq_nil_iff {before : List Route} {pipeline : Pipeline} :
    ofPipeline reserved known before pipeline = [] ↔
      pipeline.InOrder reserved known ∧ pipeline.route ∉ before := by
  simp only [ofPipeline, List.append_eq_nil_iff, Option.toList_eq_nil_iff, ofRoute_eq_nil_iff,
    ofSteps_eq_nil_iff, ofOutput_eq_none_iff]
  constructor
  · rintro ⟨⟨⟨hroute, hnew⟩, hnamed, hknown, -, hdistinct⟩, houtput⟩
    exact ⟨⟨hroute, hnamed, hdistinct, hknown, houtput⟩, hnew⟩
  · rintro ⟨h, hnew⟩
    exact ⟨⟨⟨h.routeNamed, hnew⟩, h.named, h.known, by simp, h.distinct⟩, h.output⟩

/-- Pipelines after others have no problems exactly if each is in order and no route comes again. -/
theorem ofPipelines_eq_nil_iff {before : List Route} {pipelines : List Pipeline} :
    ofPipelines reserved known before pipelines = [] ↔
      (∀ pipeline ∈ pipelines, pipeline.InOrder reserved known) ∧
        (∀ pipeline ∈ pipelines, pipeline.route ∉ before) ∧ (pipelines.map (·.route)).Nodup := by
  induction pipelines generalizing before with
  | nil => simp [ofPipelines]
  | cons pipeline rest ih =>
    simp only [ofPipelines, List.append_eq_nil_iff, ofPipeline_eq_nil_iff, ih, List.forall_mem_cons,
      List.map_cons, List.nodup_cons, List.mem_append, List.mem_singleton]
    grind

/-- **Pipelines have no problems** exactly if each is in order and no route comes twice. -/
theorem find_eq_nil_iff {pipelines : List Pipeline} :
    find reserved known pipelines = [] ↔
      (∀ pipeline ∈ pipelines, pipeline.InOrder reserved known) ∧
        (pipelines.map (·.route)).Nodup := by
  rw [find, ofPipelines_eq_nil_iff]
  simp

theorem validate_of_nil {pipelines : List Pipeline} (h : find reserved known pipelines = []) :
    validate reserved known pipelines = .ok () := by
  rw [validate, h]

theorem validate_of_ne_nil {pipelines : List Pipeline} (h : find reserved known pipelines ≠ []) :
    validate reserved known pipelines =
      .error (.fault (fault (find reserved known pipelines))) := by
  unfold validate
  split
  · contradiction
  · rfl

/-- Pipelines pass exactly if they have no problems. -/
theorem validate_ok_iff {pipelines : List Pipeline} :
    validate reserved known pipelines = .ok () ↔ find reserved known pipelines = [] := by
  constructor
  · intro h
    by_contra hproblems
    rw [validate_of_ne_nil hproblems] at h
    cases h
  · exact validate_of_nil

end PipelineProblem

/-! ## §2 Tables by route -/

namespace RouteMap

variable {α : Type}

theorem find?_put (table : RouteMap α) (route other : Route) (x : α) :
    (table.put route x).find? other = if route = other then some x else table.find? other := by
  induction table with
  | nil => by_cases h : route = other <;> simp [put, find?, h]
  | cons entry rest ih =>
    obtain ⟨r, y⟩ := entry
    -- A look-up tries the first entry and goes on with the others.
    have hcons : ∀ (z : α) (t : RouteMap α), RouteMap.find? ((r, z) :: t) other =
        if r = other then some z else RouteMap.find? t other := by
      intro z t
      by_cases h : r = other <;> simp [find?, h]
    simp only [put]
    split_ifs <;> simp_all

/-- What a table holds after entries were put into it is one of these entries,
or was there before. -/
theorem mem_of_find?_foldl {entries : List (Route × α)} {table : RouteMap α} {route : Route} {x : α}
    (h : RouteMap.find? (entries.foldl (fun table entry => table.put entry.1 entry.2) table) route =
      some x) :
    (route, x) ∈ entries ∨ table.find? route = some x := by
  induction entries generalizing table with
  | nil => exact .inr h
  | cons entry rest ih =>
    rcases ih h with hmem | hfind
    · exact .inl (List.mem_cons_of_mem _ hmem)
    · rw [find?_put] at hfind
      split_ifs at hfind with hroute
      · obtain rfl := Option.some.inj hfind
        exact .inl (by simp [← hroute])
      · exact .inr hfind

/-- What a table of entries holds under a route is one of the entries of that route. -/
theorem mem_of_find?_ofList {entries : List (Route × α)} {route : Route} {x : α}
    (h : (ofList entries).find? route = some x) : (route, x) ∈ entries := by
  rcases mem_of_find?_foldl h with hmem | hnil
  · exact hmem
  · simp [find?] at hnil

/-- Entries of other routes that are put into a table leave alone what it holds under a route. -/
theorem find?_foldl_of_notMem {entries : List (Route × α)} {table : RouteMap α} {route : Route}
    (h : route ∉ entries.map (·.1)) :
    RouteMap.find? (entries.foldl (fun table entry => table.put entry.1 entry.2) table) route =
      table.find? route := by
  induction entries generalizing table with
  | nil => rfl
  | cons entry rest ih =>
    obtain ⟨hfirst, hrest⟩ := not_or.mp (mt List.mem_cons.mpr h)
    rw [List.foldl_cons, ih hrest, find?_put, if_neg (Ne.symm hfirst)]

/-- Entries with different routes are all found in a table into which they were put. -/
theorem find?_foldl_of_mem {entries : List (Route × α)} {table : RouteMap α} {route : Route} {x : α}
    (hdistinct : (entries.map (·.1)).Nodup) (h : (route, x) ∈ entries) :
    RouteMap.find? (entries.foldl (fun table entry => table.put entry.1 entry.2) table) route =
      some x := by
  induction entries generalizing table with
  | nil => cases h
  | cons entry rest ih =>
    obtain ⟨hnew, hdistinct⟩ := List.nodup_cons.mp hdistinct
    rw [List.foldl_cons]
    rcases List.mem_cons.mp h with rfl | hmem
    · -- No later entry takes the place of the first one.
      rw [find?_foldl_of_notMem hnew, find?_put, if_pos rfl]
    · exact ih hdistinct hmem

/-- **A table of entries with different routes** holds exactly these entries. -/
theorem find?_ofList_iff {entries : List (Route × α)} {route : Route} {x : α}
    (hdistinct : (entries.map (·.1)).Nodup) :
    (ofList entries).find? route = some x ↔ (route, x) ∈ entries :=
  ⟨mem_of_find?_ofList, find?_foldl_of_mem hdistinct⟩

end RouteMap

/-! ## §3 Built tables -/

namespace PipelineTable

/-- **A sound table**: every pipeline that it serves is served under its own route and is in order,
and the unit of every step has been looked up. -/
structure Sound (reserved : List String) (table : PipelineTable) : Prop where
  routed : ∀ {route pipeline}, table.find? route = some pipeline → pipeline.route = route
  inOrder : ∀ {route pipeline}, table.find? route = some pipeline →
    ∃ known, pipeline.InOrder reserved known
  captured : ∀ {route pipeline}, table.find? route = some pipeline →
    ∀ step ∈ pipeline.steps, ∃ unit, table.units.lookup step.uses = some unit

/-- Looking units up finds an entry for every name. -/
theorem lookup_of_capture {names : List String} {catalog catalog' : Catalog}
    {units : List (String × Option StepUnit)} (h : capture catalog names = (.ok units, catalog')) :
    ∀ name ∈ names, ∃ unit, units.lookup name = some unit := by
  induction names generalizing catalog catalog' units with
  | nil => simp
  | cons first rest ih =>
    unfold capture at h
    split at h
    · simp at h
    · rename_i unit catalog₁ hget
      split at h
      · simp at h
      · rename_i more catalog₂ hrest
        obtain ⟨hunits, -⟩ := Prod.mk.inj h
        obtain rfl := Except.ok.inj hunits
        intro name hname
        -- The name that was looked up first is at the front, all others are found behind it.
        by_cases hfirst : name = first
        · exact ⟨unit, by simp [hfirst]⟩
        · obtain ⟨u, hu⟩ := ih hrest name (by simpa [hfirst] using hname)
          exact ⟨u, by simpa [List.lookup_cons, beq_eq_false_iff_ne.mpr hfirst] using hu⟩

/-- The unit of every step is among the names in use. -/
theorem mem_usedNames {pipelines : List Pipeline} {pipeline : Pipeline} {step : Step}
    (hpipeline : pipeline ∈ pipelines) (hstep : step ∈ pipeline.steps) :
    step.uses ∈ usedNames pipelines := by
  rw [usedNames, List.mem_eraseDups, List.mem_flatMap]
  exact ⟨pipeline, hpipeline, List.mem_map_of_mem hstep⟩

/-- What a table that could be built is made of. -/
theorem build_ok {catalog catalog' : Catalog} {pipelines : List Pipeline} {reserved : List String}
    {table : PipelineTable} (h : build catalog pipelines reserved = (.ok table, catalog')) :
    PipelineProblem.find reserved catalog.contains pipelines = [] ∧
      ∃ units, capture catalog (usedNames pipelines) = (.ok units, catalog') ∧
        table = ⟨RouteMap.ofList (pipelines.map fun p => (p.route, p)), units⟩ := by
  unfold build at h
  split at h
  · simp at h
  · rename_i hvalidate
    refine ⟨PipelineProblem.validate_ok_iff.mp hvalidate, ?_⟩
    split at h
    · rename_i units catalog₁ hcapture
      obtain ⟨htable, rfl⟩ := Prod.mk.inj h
      obtain rfl := Except.ok.inj htable
      exact ⟨units, hcapture, rfl⟩
    · simp at h

/-- **Built tables are sound**. -/
theorem sound_of_build {catalog catalog' : Catalog} {pipelines : List Pipeline}
    {reserved : List String} {table : PipelineTable}
    (h : build catalog pipelines reserved = (.ok table, catalog')) :
    table.Sound reserved := by
  obtain ⟨hfind, units, hcapture, rfl⟩ := build_ok h
  have horder := (PipelineProblem.find_eq_nil_iff.mp hfind).1
  -- Each pipeline of the table was put there under its own route.
  have hserved : ∀ {route : Route} {pipeline : Pipeline},
      find? ⟨RouteMap.ofList (pipelines.map fun p => (p.route, p)), units⟩ route = some pipeline →
        pipeline ∈ pipelines ∧ pipeline.route = route := by
    intro route pipeline hfound
    obtain ⟨p, hp, heq⟩ := List.mem_map.mp (RouteMap.mem_of_find?_ofList hfound)
    obtain ⟨rfl, rfl⟩ := Prod.mk.inj heq
    exact ⟨hp, rfl⟩
  exact
    { routed := fun hfound => (hserved hfound).2
      inOrder := fun hfound => ⟨_, horder _ (hserved hfound).1⟩
      captured := fun hfound step hstep =>
        lookup_of_capture hcapture _ (mem_usedNames (hserved hfound).1 hstep) }

end PipelineTable

end Switchyard
