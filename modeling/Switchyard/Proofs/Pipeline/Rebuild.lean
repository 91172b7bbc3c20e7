import Switchyard.Proofs.Pipeline.Checked

/-!
# Tables that are built again

A unit that has been looked up stays what it is: the catalog keeps what a factory made. A table
whose units are all there is therefore built again from the catalog that its building left.

Main statement: `build_again`.
-/

namespace Switchyard

/-! ## §1 Units that have been looked up -/

namespace Catalog

variable {catalog catalog' : Catalog} {name other : String} {unit : StepUnit} {source : UnitSource}

/-- The unit of a name is there: it is given, or a factory made it. -/
def Settled (catalog : Catalog) (name : String) (unit : StepUnit) : Prop :=
  ∃ entry, catalog.find? name = some entry ∧ entry.unit? = some unit

/-- A unit that is there is looked up without a change. -/
theorem get_of_settled (h : catalog.Settled name unit) :
    catalog.get name = (.ok (some unit), catalog) := by
  obtain ⟨entry, hentry, hunit⟩ := h
  unfold get
  rw [hentry]
  cases hsource : entry.source with
  | given given =>
    rw [UnitEntry.unit?, hsource] at hunit
    obtain rfl := Option.some.inj hunit
    simp only [hsource]
  | built factory made =>
    rw [UnitEntry.unit?, hsource] at hunit
    obtain rfl : made = some unit := hunit
    simp only [hsource]

/-- The entry of a name is one of that name. -/
theorem name_of_find? {entry : UnitEntry} (h : catalog.find? name = some entry) :
    entry.name = name := by
  simpa using List.find?_some h

/-- Putting another source in the place of one changes the entry of the name, and leaves each
entry in its place. -/
theorem find?_setSource : (catalog.setSource name source).find? other =
    (catalog.find? other).map fun entry => if entry.name == name then { entry with source }
      else entry := by
  unfold setSource find?
  rw [List.find?_map]
  congr 2
  funext entry
  rw [Function.comp_apply]
  split <;> rfl

/-- Putting another source in the place of one keeps the names that are registered. -/
theorem contains_setSource :
    (catalog.setSource name source).contains other = catalog.contains other := by
  unfold setSource contains
  rw [List.any_map]
  congr 1
  funext entry
  rw [Function.comp_apply]
  split <;> rfl

/-- **Looking a name up**: it is not registered, its unit is there, or its factory is asked. What
the factory makes is kept; if it fails the catalog only knows that it was asked. -/
theorem get_cases (catalog : Catalog) (name : String) :
    (catalog.get name = (.ok none, catalog)) ∨
      (∃ unit, catalog.Settled name unit ∧ catalog.get name = (.ok (some unit), catalog)) ∨
      ∃ entry factory asked, catalog.find? name = some entry ∧ entry.source = .built factory none ∧
        asked.entries = catalog.entries ∧
        ((∃ e, catalog.get name = (.error e, asked)) ∨
          ∃ made, catalog.get name = (.ok made, asked.setSource name (.built factory made))) := by
  cases hentry : catalog.find? name with
  | none =>
    left
    rw [get, hentry]
  | some entry =>
    right
    cases hunit : entry.unit? with
    | some unit =>
      have hsettled : catalog.Settled name unit := ⟨entry, hentry, hunit⟩
      exact .inl ⟨unit, hsettled, get_of_settled hsettled⟩
    | none =>
      right
      cases hsource : entry.source with
      | given unit =>
        rw [UnitEntry.unit?, hsource] at hunit
        cases hunit
      | built factory made =>
        rw [UnitEntry.unit?, hsource] at hunit
        obtain rfl : made = none := hunit
        refine ⟨entry, factory, { catalog with builds := catalog.builds ++ [entry.config] }, rfl,
          hsource, rfl, ?_⟩
        unfold get
        simp only [hentry, hsource]
        cases factory catalog.builds.length entry.config with
        | error e => exact .inl ⟨e, rfl⟩
        | ok made => exact .inr ⟨made, rfl⟩

theorem find?_of_entries (h : catalog'.entries = catalog.entries) :
    catalog'.find? name = catalog.find? name := by
  rw [find?, find?, h]

theorem contains_of_entries (h : catalog'.entries = catalog.entries) :
    catalog'.contains name = catalog.contains name := by
  rw [contains, contains, h]

/-- Looking a name up keeps the names that are registered. -/
theorem contains_get : (catalog.get name).2.contains other = catalog.contains other := by
  rcases catalog.get_cases name
      with hget | ⟨unit, -, hget⟩ | ⟨entry, factory, asked, -, -, hasked, hget⟩
  · rw [hget]
  · rw [hget]
  · rcases hget with ⟨e, hget⟩ | ⟨made, hget⟩
    · rw [hget, contains_of_entries hasked]
    · rw [hget, contains_setSource, contains_of_entries hasked]

/-- **A unit that was looked up** is there. -/
theorem settled_of_get (h : catalog.get name = (.ok (some unit), catalog')) :
    catalog'.Settled name unit := by
  rcases catalog.get_cases name
      with hget | ⟨found, hfound, hget⟩ | ⟨entry, factory, asked, hentry, -, hasked, hget⟩
  · rw [hget] at h
    cases h
  · rw [hget] at h
    cases h
    exact hfound
  · rcases hget with ⟨e, hget⟩ | ⟨made, hget⟩
    · rw [hget] at h
      cases h
    · rw [hget] at h
      cases h
      -- What the factory made has been put in the place of the factory.
      refine ⟨{ entry with source := .built factory (some unit) }, ?_, rfl⟩
      rw [find?_setSource, find?_of_entries hasked, hentry, Option.map_some,
        if_pos (by simp [name_of_find? hentry])]

/-- **A unit that is there** stays there, whatever is looked up. -/
theorem Settled.get (h : catalog.Settled name unit) : (catalog.get other).2.Settled name unit := by
  rcases catalog.get_cases other
      with hget | ⟨found, -, hget⟩ | ⟨asked', factory, asked, hother, hsource, hasked, hget⟩
  · rw [hget]
    exact h
  · rw [hget]
    exact h
  · obtain ⟨entry, hentry, hunit⟩ := h
    rcases hget with ⟨e, hget⟩ | ⟨made, hget⟩
    · rw [hget]
      exact ⟨entry, by rw [find?_of_entries hasked, hentry], hunit⟩
    · rw [hget]
      refine ⟨entry, ?_, hunit⟩
      -- The name whose factory was asked had no unit, so it is another one.
      have hne : ¬ entry.name = other := by
        intro hname
        rw [name_of_find? hentry] at hname
        subst hname
        obtain rfl := Option.some.inj (hentry.symm.trans hother)
        rw [UnitEntry.unit?, hsource] at hunit
        cases hunit
      rw [find?_setSource, find?_of_entries hasked, hentry, Option.map_some,
        if_neg (by simpa using hne)]

/-- The units that are always there are registered once. -/
theorem addBuiltins_of_contains (hexpression : catalog.contains Units.expression.name = true)
    (hlog : catalog.contains Units.log.name = true) : catalog.addBuiltins = catalog := by
  have hfirst : catalog.addBuiltin Units.expression "Evaluates embedded expressions" = catalog :=
    if_pos hexpression
  rw [addBuiltins, hfirst]
  exact if_pos hlog

/-- A unit that is always there is registered afterwards. -/
theorem contains_addBuiltin {description : String} :
    (catalog.addBuiltin unit description).contains unit.name = true := by
  unfold addBuiltin
  split
  · assumption
  · simp [contains]

/-- Registering a unit that is always there keeps the others. -/
theorem contains_addBuiltin_of_contains {description : String} (h : catalog.contains name = true) :
    (catalog.addBuiltin unit description).contains name = true := by
  unfold addBuiltin
  split
  · exact h
  · unfold contains at h ⊢
    rw [List.any_append, h, Bool.true_or]

/-- **A catalog with the units that are always there** keeps them. -/
theorem addBuiltins_of_contains_eq
    (h : ∀ name, catalog'.contains name = catalog.addBuiltins.contains name) :
    catalog'.addBuiltins = catalog' := by
  apply addBuiltins_of_contains
  · rw [h]
    exact contains_addBuiltin_of_contains contains_addBuiltin
  · rw [h]
    exact contains_addBuiltin

end Catalog

/-! ## §2 Tables -/

namespace PipelineTable

variable {catalog catalog' : Catalog} {names : List String}
  {units : List (String × Option StepUnit)}

/-- What looking one name up keeps, looking several up keeps. -/
theorem capture_keeps {p : Catalog → Prop}
    (hget : ∀ catalog name, p catalog → p (catalog.get name).2) (h : p catalog) :
    p (capture catalog names).2 := by
  induction names generalizing catalog with
  | nil => exact h
  | cons first rest ih =>
    have hfirst : p (catalog.get first).2 := hget catalog first h
    unfold capture
    rcases hresult : catalog.get first with ⟨result, between⟩
    rw [hresult] at hfirst
    cases result with
    | error e => exact hfirst
    | ok unit =>
      have hrest : p (capture between rest).2 := ih hfirst
      simp only
      rcases hcapture : capture between rest with ⟨more, last⟩
      rw [hcapture] at hrest
      cases more <;> exact hrest

/-- How units that are looked up one after another are found. -/
theorem capture_cons_ok {first : String} {rest : List String}
    (h : capture catalog (first :: rest) = (.ok units, catalog')) :
    ∃ unit between more, catalog.get first = (.ok unit, between) ∧
      capture between rest = (.ok more, catalog') ∧
      units = (first, unit) :: more := by
  unfold capture at h
  split at h
  · cases h
  · rename_i unit between hget
    split at h
    · cases h
    · rename_i more last hrest
      cases h
      exact ⟨unit, between, more, hget, hrest, rfl⟩

/-- Units that were all looked up are there, each under its name. -/
theorem settled_of_capture (h : capture catalog names = (.ok units, catalog'))
    (hthere : ∀ entry ∈ units, entry.2.isSome) :
    ∃ found : List StepUnit, List.Forall₂ catalog'.Settled names found ∧
      units = names.zip (found.map some) := by
  induction names generalizing catalog units with
  | nil =>
    obtain ⟨hunits, rfl⟩ := Prod.mk.inj h
    obtain rfl := Except.ok.inj hunits
    exact ⟨[], .nil, rfl⟩
  | cons first rest ih =>
    obtain ⟨unit?, between, more, hget, hrest, rfl⟩ := capture_cons_ok h
    obtain ⟨hfirst, hmore⟩ := List.forall_mem_cons.mp hthere
    obtain ⟨unit, rfl⟩ := Option.isSome_iff_exists.mp hfirst
    obtain ⟨found, hfound, rfl⟩ := ih hrest hmore
    have hsettled : (capture between rest).2.Settled first unit :=
      capture_keeps (p := (·.Settled first unit)) (fun _ _ h => h.get) (Catalog.settled_of_get hget)
    rw [hrest] at hsettled
    exact ⟨unit :: found, .cons hsettled hfound, rfl⟩

/-- Units that are there are looked up without a change. -/
theorem capture_of_settled {found : List StepUnit} (h : List.Forall₂ catalog.Settled names found) :
    capture catalog names = (.ok (names.zip (found.map some)), catalog) := by
  induction h with
  | nil => rfl
  | cons hfirst hrest ih =>
    unfold capture
    rw [Catalog.get_of_settled hfirst]
    simp only [ih]
    rfl

/-- **A table is built again** from the catalog that its building left, if its
units are all there. -/
theorem build_again {pipelines : List Pipeline} {reserved : List String} {table : PipelineTable}
    (h : build catalog.addBuiltins pipelines reserved = (.ok table, catalog'))
    (hthere : ∀ entry ∈ table.units, entry.2.isSome) :
    build catalog'.addBuiltins pipelines reserved = (.ok table, catalog') := by
  obtain ⟨hfind, units, hcapture, rfl⟩ := build_ok h
  -- The same names are registered as before, so the pipelines have no problems now either.
  have hcontains : ∀ name, catalog'.contains name = catalog.addBuiltins.contains name := by
    intro name
    have hsame : (capture catalog.addBuiltins (usedNames pipelines)).2.contains name =
        catalog.addBuiltins.contains name :=
      capture_keeps (p := (·.contains name = catalog.addBuiltins.contains name))
        (fun _ _ h => Catalog.contains_get.trans h) rfl
    rwa [hcapture] at hsame
  obtain ⟨found, hfound, rfl⟩ := settled_of_capture hcapture hthere
  rw [Catalog.addBuiltins_of_contains_eq hcontains]
  unfold build
  rw [funext hcontains, PipelineProblem.validate_of_nil hfind]
  simp only [capture_of_settled hfound]

end PipelineTable

end Switchyard
