import Mathlib.Data.Set.Basic
import Switchyard.Proofs.Units.LookUps

/-!
# Units of factories

A unit that is registered as such is there from then on, and it can be called. A unit that a factory
builds should be as good: the factory returns once, what it returned is found ever after, and it can
be called. But nobody checks what a factory returns. If it returns nothing, the unit counts as not
built, so that a registered name has no unit and the factory is asked again; and if what it returns
cannot be called, a table takes it up all the same.

Main statements: a catalog whose factories can be depended on stays one (`Catalog.Dependable.run`),
the units of all tables that are built from it can be called (`PipelineTable.callable_of_build`),
and these factories, and no others, are as good as units (`asGoodAsGiven_iff`).
-/

namespace Switchyard

/-! ## §1 Units that can be called -/

/-- **A factory that can be depended on**: whenever it returns, it returns a unit, and one
that can be called. -/
def Factory.Dependable (factory : Factory) : Prop :=
  ∀ attempt config made, factory attempt config = .ok made → ∃ unit, made = some unit ∧
    unit.behaviour.isSome

/-- An entry that can be depended on: its unit can be called if it is there, and its factory
can be depended on. -/
structure UnitEntry.Dependable (entry : UnitEntry) : Prop where
  unit : ∀ unit, entry.unit? = some unit → unit.behaviour.isSome
  factory : ∀ factory made, entry.source = .built factory made → factory.Dependable

namespace UnitEntry

variable {entry : UnitEntry} {unit : StepUnit} {factory : Factory} {made : Option StepUnit}

theorem dependable_of_given (hsource : entry.source = .given unit)
    (hcallable : unit.behaviour.isSome) : entry.Dependable where
  unit := by
    intro found hfound
    rw [unit?, hsource] at hfound
    obtain rfl := Option.some.inj hfound
    exact hcallable
  factory := by simp [hsource]

theorem dependable_of_built (hsource : entry.source = .built factory made)
    (hfactory : factory.Dependable) (hmade : ∀ unit, made = some unit → unit.behaviour.isSome) :
    entry.Dependable where
  unit := by
    intro found hfound
    rw [unit?, hsource] at hfound
    exact hmade found hfound
  factory := by
    intro other made' hbuilt
    obtain ⟨rfl, -⟩ := UnitSource.built.inj (hsource.symm.trans hbuilt)
    exact hfactory

end UnitEntry

namespace Catalog

/-- **A catalog that can be depended on.** -/
def Dependable (catalog : Catalog) : Prop := ∀ entry ∈ catalog.entries, entry.Dependable

variable {catalog catalog' : Catalog} {name other : String} {unit : StepUnit}
  {made : Option StepUnit} {calls : List CatalogCall} {call : CatalogCall} {entry : UnitEntry}

namespace Dependable

/-- **What is found under a name that is registered** is a unit that can be called. -/
theorem of_get (h : catalog.Dependable) (hknown : catalog.contains name = true)
    (hget : (catalog.get name).1 = .ok made) :
    ∃ unit, made = some unit ∧ unit.behaviour.isSome := by
  rw [contains_eq_isSome_find?] at hknown
  obtain ⟨entry, hentry⟩ := Option.isSome_iff_exists.mp hknown
  have hdependable := h entry (List.mem_of_find?_eq_some hentry)
  simp only [Catalog.get, hentry] at hget
  split at hget
  · rename_i unit hsource
    obtain rfl := Except.ok.inj hget
    exact ⟨unit, rfl, hdependable.unit unit (by rw [UnitEntry.unit?, hsource])⟩
  · rename_i unit hsource
    obtain rfl := Except.ok.inj hget
    exact ⟨unit, rfl, hdependable.unit unit (by rw [UnitEntry.unit?, hsource])⟩
  · rename_i factory hsource
    -- Nothing is there yet, so this is what the factory returns.
    apply hdependable.factory factory none hsource catalog.builds.length entry.config
    cases hmade : factory catalog.builds.length entry.config with
    | error e => simp [hmade] at hget
    | ok found => simpa [hmade] using hget

theorem of_entries (h : catalog.Dependable) (hentries : catalog'.entries = catalog.entries) :
    catalog'.Dependable := by
  unfold Dependable
  rwa [hentries]

theorem append (h : catalog.Dependable) (hnew : entry.Dependable)
    (hentries : catalog'.entries = catalog.entries ++ [entry]) : catalog'.Dependable := by
  intro other hother
  rw [hentries] at hother
  rcases List.mem_append.mp hother with hold | hlast
  · exact h other hold
  · obtain rfl := List.mem_singleton.mp hlast
    exact hnew

theorem add (h : catalog.Dependable) (hnew : entry.Dependable) :
    (catalog.orUnchanged (catalog.add entry)).2.Dependable := by
  unfold Catalog.add
  split
  · exact h
  · exact h.append hnew rfl

/-- A unit is only registered if it can be called. -/
theorem register (h : catalog.Dependable) {version description : String} {tags : List String} :
    (catalog.orUnchanged (catalog.register name unit version description tags)).2.Dependable := by
  unfold Catalog.register
  split
  · exact h
  · rename_i hcallable
    apply h.add
    apply UnitEntry.dependable_of_given rfl
    simpa [Option.isSome_iff_ne_none] using hcallable

theorem addFactory (h : catalog.Dependable) {factory : Factory} (hfactory : factory.Dependable)
    {version description : String} {config : Value} {tags : List String} :
    (catalog.orUnchanged
      (catalog.addFactory name factory version config description tags)).2.Dependable :=
  h.add (UnitEntry.dependable_of_built rfl hfactory (by simp))

theorem addBuiltin (h : catalog.Dependable) (hcallable : unit.behaviour.isSome)
    (description : String) : (catalog.addBuiltin unit description).Dependable := by
  unfold Catalog.addBuiltin
  split
  · exact h
  · exact h.append (UnitEntry.dependable_of_given rfl hcallable) rfl

theorem remove (h : catalog.Dependable) : (catalog.remove name).2.Dependable := by
  unfold Catalog.remove
  split
  · exact fun entry hentry => h entry (List.mem_filter.mp hentry).1
  · exact h

/-- Looking a unit up puts what the factory returned into its entry, and that is a unit
that can be called. -/
theorem get (h : catalog.Dependable) : (catalog.get name).2.Dependable := by
  rcases catalog.get_cases name
      with hget | ⟨unit, -, hget⟩ | ⟨entry, factory, asked, hentry, hsource, hasked, hget⟩
  · rwa [hget]
  · rwa [hget]
  · have hdependable := (h entry (List.mem_of_find?_eq_some hentry)).factory factory none hsource
    have hknown : catalog.contains name = true := by simp [contains_eq_isSome_find?, hentry]
    rcases hget with ⟨e, hget⟩ | ⟨made, hget⟩
    · rw [hget]
      exact h.of_entries hasked
    · obtain ⟨unit, rfl, hcallable⟩ := h.of_get hknown (congrArg Prod.fst hget)
      rw [hget]
      intro changed hchanged
      obtain ⟨other, hother, rfl⟩ := List.mem_map.mp hchanged
      split
      · exact UnitEntry.dependable_of_built rfl hdependable fun found hfound => by
          obtain rfl := Option.some.inj hfound
          exact hcallable
      · exact h other (hasked ▸ hother)

/-- **A catalog that can be depended on stays one** by a call that registers no other factories. -/
theorem perform (h : catalog.Dependable)
    (hfactory : ∀ factory, call.factory? = some factory → factory.Dependable) :
    (catalog.perform call).2.Dependable := by
  cases call with
  | register | addFunction => exact h.register
  | addFactory name factory => exact h.addFactory (hfactory factory rfl)
  | remove => exact h.remove
  | get => exact h.get
  | clear => exact fun entry hentry => by simp [Catalog.perform, clear] at hentry
  | addBuiltins => exact (h.addBuiltin rfl _).addBuiltin rfl _

/-- A run of calls leaves such a catalog, too. -/
theorem run (h : catalog.Dependable)
    (hfactories : ∀ call ∈ calls, ∀ factory, call.factory? = some factory → factory.Dependable) :
    (catalog.run calls).Dependable := by
  induction calls generalizing catalog with
  | nil => exact h
  | cons call rest ih =>
    obtain ⟨hcall, hrest⟩ := List.forall_mem_cons.mp hfactories
    exact ih (h.perform hcall) hrest

/-- **Look-ups in a catalog that can be depended on** find nothing only where nothing is registered,
and no factory returns nothing in them. -/
theorem of_mem_lookUps (h : catalog.Dependable)
    (hfactories : ∀ call ∈ calls, ∀ factory, call.factory? = some factory → factory.Dependable) :
    ∀ l ∈ catalog.lookUps calls, (l.answer = .ok none → l.known = false) ∧
      l.returned ≠ some none := by
  induction calls generalizing catalog with
  | nil => simp [lookUps]
  | cons call rest ih =>
    obtain ⟨hcall, hrest⟩ := List.forall_mem_cons.mp hfactories
    intro l hl
    rcases List.mem_append.mp hl with hfirst | hlater
    · obtain ⟨name, -, rfl⟩ := Option.map_eq_some_iff.mp (Option.mem_toList.mp hfirst)
      have hfound : (catalog.lookUp name).answer = .ok none →
          (catalog.lookUp name).known = false := by
        intro hanswer
        by_contra hknown
        obtain ⟨unit, hunit, -⟩ := h.of_get (Bool.not_eq_false _ |>.mp hknown) hanswer
        cases hunit
      refine ⟨hfound, fun hreturned => ?_⟩
      simpa [hfound (answer_of_returned hreturned)] using known_of_returned hreturned
    · exact ih (h.perform hcall) hrest l hlater

end Dependable

end Catalog

/-! ## §2 Tables that are built from a catalog -/

namespace PipelineTable

variable {catalog catalog' : Catalog} {names : List String}
  {units : List (String × Option StepUnit)}

/-- The names that are looked up to capture units: all of them, or those up to the first one
that raises an error. -/
def lookedUp (catalog : Catalog) : List String → List String
  | [] => []
  | name :: rest =>
    match catalog.get name with
    | (.error _, _) => [name]
    | (.ok _, catalog) => name :: lookedUp catalog rest

/-- Capturing units does to a catalog what these look-ups do. -/
theorem run_lookedUp (catalog : Catalog) (names : List String) :
    catalog.run ((lookedUp catalog names).map .get) = (capture catalog names).2 := by
  induction names generalizing catalog with
  | nil => rfl
  | cons name rest ih =>
    have hstep : ∀ calls, catalog.run (.get name :: calls) = (catalog.get name).2.run calls :=
      fun _ => rfl
    unfold lookedUp capture
    rcases hget : catalog.get name with ⟨result, between⟩
    cases result with
    | error e =>
      simp only [List.map_cons, List.map_nil, hstep, hget]
      rfl
    | ok unit =>
      simp only [List.map_cons, hstep, hget, ih]
      rcases capture between rest with ⟨more, last⟩
      cases more <;> rfl

/-- **What is captured from a catalog that can be depended on** under a name that is
registered can be called. -/
theorem callable_of_capture (h : catalog.Dependable)
    (hcapture : capture catalog names = (.ok units, catalog')) {name : String}
    {made : Option StepUnit} (hmem : (name, made) ∈ units) (hknown : catalog.contains name = true) :
    ∃ unit, made = some unit ∧ unit.behaviour.isSome := by
  induction names generalizing catalog units with
  | nil =>
    obtain ⟨hunits, -⟩ := Prod.mk.inj hcapture
    obtain rfl := Except.ok.inj hunits
    simp at hmem
  | cons first rest ih =>
    obtain ⟨found, between, more, hget, hrest, rfl⟩ := capture_cons_ok hcapture
    obtain rfl : (catalog.get first).2 = between := congrArg Prod.snd hget
    rcases List.mem_cons.mp hmem with hfirst | hlater
    · obtain ⟨rfl, rfl⟩ := Prod.mk.inj hfirst
      exact h.of_get hknown (congrArg Prod.fst hget)
    · exact ih h.get hrest hlater (Catalog.contains_get.trans hknown)

/-- **The units of a table that is built from a catalog that can be depended on** can be called. -/
theorem callable_of_build (h : catalog.Dependable) {pipelines : List Pipeline}
    {reserved : List String} {table : PipelineTable}
    (hbuild : (build catalog pipelines reserved).1 = .ok table) {pipeline : Pipeline}
    (hpipeline : pipeline ∈ pipelines) {step : Step} (hstep : step ∈ pipeline.steps) :
    ∃ unit, table.unitNamed step.uses = .ok (some unit) ∧ unit.behaviour.isSome := by
  obtain ⟨hfind, units, hcapture, rfl⟩ := build_ok (Prod.ext hbuild rfl)
  have hknown := ((PipelineProblem.find_eq_nil_iff.mp hfind).1 pipeline hpipeline).known step hstep
  obtain ⟨made, hmade⟩ := lookup_of_capture hcapture _ (mem_usedNames hpipeline hstep)
  have hmem : (step.uses, made) ∈ units := by
    obtain ⟨front, back, rfl, -⟩ := List.lookup_eq_some_iff.mp hmade
    exact List.mem_append_right front (List.mem_cons_self ..)
  obtain ⟨unit, rfl, hcallable⟩ := callable_of_capture h hcapture hmem hknown
  exact ⟨unit, by rw [unitNamed, hmade], hcallable⟩

end PipelineTable

/-! ## §3 Histories -/

/-- **What a catalog is used for**: a call, or the building of a table. -/
inductive CatalogUse
  | called (call : CatalogCall)
  | built (pipelines : List Pipeline) (reserved : List String)

namespace CatalogUse

/-- The catalog after a use. -/
def after (catalog : Catalog) : CatalogUse → Catalog
  | .called call => (catalog.perform call).2
  | .built pipelines reserved => (PipelineTable.build catalog pipelines reserved).2

/-- The calls that a use makes. To build a table, units are looked up if the
pipelines have no problems. -/
def calls (catalog : Catalog) : CatalogUse → List CatalogCall
  | .called call => [call]
  | .built pipelines reserved =>
    match PipelineProblem.validate reserved catalog.contains pipelines with
    | .error _ => []
    | .ok () => (PipelineTable.lookedUp catalog (PipelineTable.usedNames pipelines)).map .get

/-- The factory that a use registers. -/
def factory? : CatalogUse → Option Factory
  | .called call => call.factory?
  | .built .. => none

variable {catalog : Catalog} {use : CatalogUse}

/-- A use does to a catalog what its calls do. -/
theorem run_calls : catalog.run (use.calls catalog) = use.after catalog := by
  cases use with
  | called call => rfl
  | built pipelines reserved =>
    simp only [calls, after, PipelineTable.build]
    cases PipelineProblem.validate reserved catalog.contains pipelines with
    | error e => rfl
    | ok =>
      simp only [PipelineTable.run_lookedUp]
      rcases PipelineTable.capture catalog (PipelineTable.usedNames pipelines) with ⟨units, last⟩
      cases units <;> rfl

/-- The calls of a use register no other factory. -/
theorem factory?_of_mem_calls {call : CatalogCall} (h : call ∈ use.calls catalog)
    {factory : Factory} (hfactory : call.factory? = some factory) :
    use.factory? = some factory := by
  cases use with
  | called other =>
    obtain rfl := List.mem_singleton.mp h
    exact hfactory
  | built pipelines reserved =>
    simp only [calls] at h
    split at h
    · cases h
    · -- A table only looks up.
      obtain ⟨name, -, rfl⟩ := List.mem_map.mp h
      cases hfactory

end CatalogUse

namespace Catalog

/-- The catalog after some uses. -/
def after (catalog : Catalog) (uses : List CatalogUse) : Catalog :=
  uses.foldl (fun catalog use => use.after catalog) catalog

/-- The calls that are made in some uses. -/
def calls (catalog : Catalog) : List CatalogUse → List CatalogCall
  | [] => []
  | use :: rest => use.calls catalog ++ (use.after catalog).calls rest

variable {catalog : Catalog} {uses : List CatalogUse}

theorem run_calls : catalog.run (catalog.calls uses) = catalog.after uses := by
  induction uses generalizing catalog with
  | nil => rfl
  | cons use rest ih =>
    rw [calls, run, List.foldl_append, ← run, ← run, CatalogUse.run_calls, ih]
    rfl

theorem exists_of_mem_calls {call : CatalogCall} (h : call ∈ catalog.calls uses) :
    ∃ use ∈ uses, ∃ catalog', call ∈ use.calls catalog' := by
  induction uses generalizing catalog with
  | nil => cases h
  | cons use rest ih =>
    rcases List.mem_append.mp h with hfirst | hlater
    · exact ⟨use, List.mem_cons_self .., catalog, hfirst⟩
    · obtain ⟨other, hother, found⟩ := ih hlater
      exact ⟨other, List.mem_cons_of_mem _ hother, found⟩

/-- If all factories that uses register can be depended on, so can all that their calls register. -/
theorem dependable_of_mem_calls
    (h : ∀ use ∈ uses, ∀ factory, use.factory? = some factory → factory.Dependable) :
    ∀ call ∈ catalog.calls uses, ∀ factory, call.factory? = some factory → factory.Dependable := by
  intro call hcall factory hfactory
  obtain ⟨use, huse, catalog', hmem⟩ := exists_of_mem_calls hcall
  exact h use huse factory (CatalogUse.factory?_of_mem_calls hmem hfactory)

end Catalog

/-- **Built units are as good as given ones** in a history of uses of a catalog that was empty. From
the registration of a factory until its name is removed it returns at most once, and what it
returned is found ever after; a look-up finds nothing only where nothing is registered; and the
units of all tables that are built can be called. -/
structure AsGoodAsGiven (uses : List CatalogUse) : Prop where
  once : ∀ before name factory version config description tags middle rest,
    Catalog.calls {} uses =
      before ++ .addFactory name factory version config description tags :: (middle ++ rest) →
    (Catalog.run {} before).contains name = false →
      (∀ call ∈ middle, CatalogCall.removes call name = false) →
    ReturnsOnce (((Catalog.run {}
      (before ++ [.addFactory name factory version config description tags])).lookUps
      middle).filter (·.name == name))
  known : ∀ l ∈ Catalog.lookUps {} (Catalog.calls {} uses), l.answer = .ok none → l.known = false
  callable : ∀ before pipelines reserved rest table,
    uses = before ++ .built pipelines reserved :: rest →
    (PipelineTable.build (Catalog.after {} before) pipelines reserved).1 = .ok table →
    ∀ pipeline ∈ pipelines, ∀ step ∈ pipeline.steps,
      ∃ unit, table.unitNamed step.uses = .ok (some unit) ∧ unit.behaviour.isSome

variable {uses : List CatalogUse}

theorem Catalog.dependable_empty : ({} : Catalog).Dependable := by simp [Dependable]

/-- **Factories that can be depended on** are as good as units. -/
theorem asGoodAsGiven_of_dependable
    (h : ∀ use ∈ uses, ∀ factory, use.factory? = some factory → factory.Dependable) :
    AsGoodAsGiven uses := by
  have hcalls : ∀ call ∈ Catalog.calls {} uses, ∀ factory, call.factory? = some factory →
      factory.Dependable :=
    Catalog.dependable_of_mem_calls h
  constructor
  · intro before name factory version config description tags middle rest hall _ hkept
    apply Catalog.returnsOnce_lookUps hkept
    -- These look-ups are some of those of the whole history.
    have hsplit : Catalog.calls {} uses =
        (before ++ [.addFactory name factory version config description tags]) ++
          (middle ++ rest) := by simp [hall]
    rw [hsplit] at hcalls
    obtain ⟨hpast, hlater⟩ := List.forall_mem_append.mp hcalls
    exact fun l hl =>
      ((Catalog.dependable_empty.run hpast).of_mem_lookUps
        (List.forall_mem_append.mp hlater).1 l hl).2
  · intro l hl
    exact (Catalog.dependable_empty.of_mem_lookUps hcalls l hl).1
  · rintro before pipelines reserved rest table rfl hbuild pipeline hpipeline step hstep
    have hbefore : (Catalog.after {} before).Dependable := by
      rw [← Catalog.run_calls]
      apply Catalog.dependable_empty.run
      exact Catalog.dependable_of_mem_calls fun use huse => h use (List.mem_append_left _ huse)
    exact PipelineTable.callable_of_build hbefore hbuild hpipeline hstep

/-! ## §4 Which factories are as good as units -/

/-- To ask a factory once, whatever it returns: its name is free afterwards. -/
def askedOnce (factory : Factory) : List CatalogUse :=
  [.called (.addFactory "u" factory "1.0.0" .null "" []), .called (.get "u"), .called (.remove "u")]

/-- To build a table with the unit of a factory that has been asked some times before. -/
def builtAfter (attempt : Nat) (factory : Factory) (config : Value) : List CatalogUse :=
  (List.replicate attempt (askedOnce factory)).flatten ++
    [.called (.addFactory "u" factory "1.0.0" config "" [])]

/-- A pipeline with one step. -/
def oneStep : Pipeline where
  route := ⟨"i", "m"⟩
  steps := [{ name := "s", uses := "u", bindings := [] }]

variable {catalog : Catalog} {factory : Factory} {config : Value} {made : Option StepUnit}

/-- No other factory is registered for this. -/
theorem factory_of_mem_builtAfter {attempt : Nat} {use : CatalogUse}
    (h : use ∈ builtAfter attempt factory config) {other : Factory}
    (hother : use.factory? = some other) : other = factory := by
  have hsame : use.factory? = none ∨ use.factory? = some factory := by
    rcases List.mem_append.mp h with hround | hlast
    · obtain ⟨round, hreplicate, huse⟩ := List.mem_flatten.mp hround
      obtain rfl := List.eq_of_mem_replicate hreplicate
      simp only [askedOnce, List.mem_cons, List.not_mem_nil, or_false] at huse
      rcases huse with rfl | rfl | rfl
      · exact .inr rfl
      · exact .inl rfl
      · exact .inl rfl
    · obtain rfl := List.mem_singleton.mp hlast
      exact .inr rfl
  rcases hsame with hnone | hsome
  · cases hnone.symm.trans hother
  · exact (Option.some.inj (hsome.symm.trans hother)).symm

/-- Whether the factory returns or fails, nothing is left but that it was asked. -/
theorem after_askedOnce (factory : Factory) (h : catalog.entries = []) :
    (catalog.after (askedOnce factory)).entries = [] ∧
      (catalog.after (askedOnce factory)).builds.length = catalog.builds.length + 1 := by
  obtain ⟨entries, builds, log⟩ := catalog
  obtain rfl : entries = [] := h
  cases hmade : factory builds.length .null <;>
    simp [Catalog.after, askedOnce, CatalogUse.after, Catalog.perform, Catalog.addFactory,
      Catalog.add, Catalog.contains, Catalog.orUnchanged, Catalog.get, Catalog.find?, hmade,
        Catalog.remove, Catalog.setSource]

theorem after_rounds (factory : Factory) (attempt : Nat) (h : catalog.entries = []) :
    (catalog.after (List.replicate attempt (askedOnce factory)).flatten).entries = [] ∧
      (catalog.after (List.replicate attempt (askedOnce factory)).flatten).builds.length =
        catalog.builds.length + attempt := by
  induction attempt generalizing catalog with
  | zero => exact ⟨h, rfl⟩
  | succ attempt ih =>
    obtain ⟨hentries, hbuilds⟩ := after_askedOnce factory h
    obtain ⟨hrest, hcount⟩ := ih hentries
    have hsplit : catalog.after (List.replicate (attempt + 1) (askedOnce factory)).flatten =
        (catalog.after (askedOnce factory)).after
          (List.replicate attempt (askedOnce factory)).flatten := by
      rw [List.replicate_succ, List.flatten_cons, Catalog.after, List.foldl_append]
      rfl
    rw [hsplit]
    exact ⟨hrest, by omega⟩

/-- The factory is registered, and has been asked as often as was said. -/
theorem after_builtAfter (attempt : Nat) (factory : Factory) (config : Value) :
    (Catalog.after {} (builtAfter attempt factory config)).find? "u" =
        some { name := "u", source := .built factory none, config } ∧
      (Catalog.after {} (builtAfter attempt factory config)).builds.length = attempt := by
  obtain ⟨hentries, hbuilds⟩ :=
    after_rounds factory attempt (show ({} : Catalog).entries = [] from rfl)
  have hlast : Catalog.after {} (builtAfter attempt factory config) =
      ((Catalog.after {} (List.replicate attempt (askedOnce factory)).flatten).perform
        (.addFactory "u" factory "1.0.0" config "" [])).2 := by
    rw [builtAfter, Catalog.after, List.foldl_append]
    rfl
  rw [hlast]
  generalize Catalog.after {} (List.replicate attempt (askedOnce factory)).flatten =
    catalog at hentries hbuilds
  simp [Catalog.perform, Catalog.addFactory, Catalog.add, Catalog.contains, Catalog.orUnchanged,
    Catalog.find?, hentries, hbuilds]

/-- What a factory returns goes into the table as it is. -/
theorem build_oneStep
    (hfind : catalog.find? "u" = some { name := "u", source := .built factory none, config })
      (hmade : factory catalog.builds.length config = .ok made) :
    (PipelineTable.build catalog [oneStep] []).1 =
      .ok ⟨RouteMap.ofList [(oneStep.route, oneStep)], [("u", made)]⟩ := by
  have hknown : catalog.contains "u" = true := by simp [Catalog.contains_eq_isSome_find?, hfind]
  have hvalid : PipelineProblem.validate [] catalog.contains [oneStep] = .ok () := by
    apply PipelineProblem.validate_of_nil
    simp [PipelineProblem.find, PipelineProblem.ofPipelines, PipelineProblem.ofPipeline,
      PipelineProblem.ofRoute, PipelineProblem.ofSteps, PipelineProblem.ofName,
        PipelineProblem.ofUnit, PipelineProblem.ofOutput, oneStep, hknown]
  have hnames : PipelineTable.usedNames [oneStep] = ["u"] := by decide
  have hget : (catalog.get "u").1 = .ok made := by simp [Catalog.get, hfind, hmade]
  unfold PipelineTable.build
  simp only [hvalid, hnames, PipelineTable.capture]
  rcases hresult : catalog.get "u" with ⟨result, last⟩
  obtain rfl : result = .ok made := by simpa [hresult] using hget
  simp

/-- **Which factories are as good as units**: exactly those that can be depended on. -/
theorem asGoodAsGiven_iff (factories : Set Factory) :
    (∀ uses, (∀ use ∈ uses, ∀ factory, CatalogUse.factory? use = some factory →
      factory ∈ factories) →
        AsGoodAsGiven uses) ↔
      ∀ factory ∈ factories, factory.Dependable := by
  constructor
  · intro h factory hmem attempt config made hmade
    -- The factory is asked until the attempt is due; then a table is built with what it returns.
    have huses : ∀ use ∈ builtAfter attempt factory config ++ [.built [oneStep] []], ∀ other,
        CatalogUse.factory? use = some other → other ∈ factories := by
      intro use huse other hother
      rcases List.mem_append.mp huse with hbefore | hlast
      · rwa [factory_of_mem_builtAfter hbefore hother]
      · obtain rfl := List.mem_singleton.mp hlast
        cases hother
    obtain ⟨hfind, hbuilds⟩ := after_builtAfter attempt factory config
    have hbuild := build_oneStep hfind (by rwa [hbuilds])
    obtain ⟨unit, hunit, hcallable⟩ := (h _ huses).callable _ [oneStep] [] [] _ rfl hbuild oneStep
      (List.mem_singleton_self _) { name := "s", uses := "u", bindings := [] }
        (List.mem_singleton_self _)
    exact ⟨unit, Except.ok.inj hunit, hcallable⟩
  · intro h uses huses
    exact asGoodAsGiven_of_dependable fun use huse factory hfactory =>
      h factory (huses use huse factory hfactory)

/-- A factory that returns nothing, and a look-up of its name. -/
def emptyHanded : List CatalogUse :=
  [.called (.addFactory "u" (fun _ _ => .ok none) "1.0.0" .null "" []), .called (.get "u")]

/-- **Not all factories are as good as units**: one that returns nothing leaves a registered
name without a unit. -/
theorem not_forall_asGoodAsGiven : ¬ ∀ uses, AsGoodAsGiven uses := by
  intro h
  have hlookUps : Catalog.lookUps {} (Catalog.calls {} emptyHanded) =
      [⟨"u", true, some none, .ok none⟩] := by rfl
  have hunknown := (h emptyHanded).known ⟨"u", true, some none, .ok none⟩ (by simp [hlookUps]) rfl
  cases hunknown

end Switchyard
