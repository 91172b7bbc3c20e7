import Switchyard.Proofs.Units.Tables

/-!
# What is registered, by what happened

What a catalog has under its names is what its history says: the latest registration of each name,
unless the name was removed or everything was cleared after it, in the order in which these
registrations were made.

Main statement: `Catalog.stays_in_order`.
-/

namespace Switchyard

/-! ## §1 Events -/

/-- What a registration says of a unit. -/
structure Registration where
  name : String
  version : String
  description : String
  deriving DecidableEq, Repr

/-- What can happen to a catalog. -/
inductive CatalogEvent
  | registered (registration : Registration)
  | removed (name : String)
  | cleared
  deriving DecidableEq, Repr

namespace CatalogEvent

def registration? : CatalogEvent → Option Registration
  | .registered registration => some registration
  | .removed _ | .cleared => none

/-- Whether an event decides what is registered under a name. -/
def concerns (event : CatalogEvent) (name : String) : Bool :=
  match event with
  | .registered registration => registration.name == name
  | .removed other => other == name
  | .cleared => true

/-- **The latest registrations**: those after which nothing happened to their name, in the order in
which they were made. -/
def latest : List CatalogEvent → List Registration
  | [] => []
  | event :: later => match event.registration? with
    | some registration =>
      if later.any (·.concerns registration.name) then latest later
      else registration :: latest later
    | none => latest later

/-- What one more event makes of registrations: none of those that it concerns is left, and
its own comes last. -/
def applyTo (registrations : List Registration) (event : CatalogEvent) : List Registration :=
  registrations.filter (fun registration => !event.concerns registration.name) ++
    event.registration?.toList

theorem latest_concat (events : List CatalogEvent) (event : CatalogEvent) :
    latest (events ++ [event]) = applyTo (latest events) event := by
  induction events with
  | nil => cases event <;> rfl
  | cons first later ih =>
    rw [List.cons_append, latest, latest]
    cases hfirst : first.registration? with
    | none => exact ih
    | some registration =>
      simp only [List.any_append, List.any_cons, List.any_nil, Bool.or_false, ih, applyTo]
      -- The first registration is left if neither a later event nor the last one concerns its name.
      cases later.any (·.concerns registration.name) <;>
        cases hlast : event.concerns registration.name <;> simp [hlast]

/-- The latest registrations come about event by event. -/
theorem latest_append (events more : List CatalogEvent) :
    latest (events ++ more) = more.foldl applyTo (latest events) := by
  induction more generalizing events with
  | nil => rw [List.append_nil, List.foldl_nil]
  | cons event rest ih =>
    rw [List.foldl_cons, ← latest_concat, ← ih, List.append_assoc, List.singleton_append]

/-- An event leaves no name twice. -/
theorem nodup_applyTo {registrations : List Registration} (event : CatalogEvent)
    (h : (registrations.map (·.name)).Nodup) :
    ((applyTo registrations event).map (·.name)).Nodup := by
  have hkept : ((registrations.filter fun r => !event.concerns r.name).map (·.name)).Nodup :=
    h.sublist (List.filter_sublist.map _)
  cases event with
  | registered registration =>
    rw [applyTo, registration?, Option.toList_some, List.map_append, List.map_singleton,
      ← List.concat_eq_append, List.nodup_concat]
    refine ⟨fun hmem => ?_, hkept⟩
    obtain ⟨other, hother, hname⟩ := List.mem_map.mp hmem
    -- What the registration concerns was left out.
    simpa [concerns, hname] using (List.mem_filter.mp hother).2
  | removed name => simpa [applyTo, registration?] using hkept
  | cleared => simpa [applyTo, registration?] using hkept

/-- A name that is free is none of those that a registration concerns. -/
theorem applyTo_registered_of_notMem {registrations : List Registration}
    {registration : Registration} (h : registration.name ∉ registrations.map (·.name)) :
    applyTo registrations (.registered registration) = registrations ++ [registration] := by
  have hfilter : registrations.filter (fun r => !concerns (.registered registration) r.name) =
      registrations := by
    rw [List.filter_eq_self]
    intro other hother
    have hne : registration.name ≠ other.name :=
      fun hsame => h (List.mem_map.mpr ⟨other, hother, hsame.symm⟩)
    simp [concerns, hne]
  rw [applyTo, hfilter]
  rfl

end CatalogEvent

/-! ## §2 What a call makes happen -/

/-- The events that a call is for. -/
def CatalogCall.events : CatalogCall → List CatalogEvent
  | .register name _ version description _ => [.registered ⟨name, version, description⟩]
  | .addFunction name f version description _ =>
    [.registered ⟨name, version, if description = "" then Text.strip f.note else description⟩]
  | .addFactory name _ version _ description _ => [.registered ⟨name, version, description⟩]
  | .remove name => [.removed name]
  | .get _ => []
  | .clear => [.cleared]
  | .addBuiltins =>
    [.registered ⟨"expr", "1.0.0", "Evaluates embedded expressions"⟩,
      .registered ⟨"log", "1.0.0", "Logs a message and passes its value through"⟩]

namespace Catalog

variable {catalog catalog' : Catalog} {name : String} {call : CatalogCall} {entry : UnitEntry}

/-- **What a call makes happen**: nothing if it raises an error; and names that are taken are
not registered again. -/
def happens (catalog : Catalog) (call : CatalogCall) : List CatalogEvent :=
  match (catalog.perform call).1 with
  | .error _ => []
  | .ok _ => call.events.filter fun event => match event.registration? with
    | some registration => !catalog.contains registration.name
    | none => true

/-- **What happens** in a run of calls. -/
def history (catalog : Catalog) : List CatalogCall → List CatalogEvent
  | [] => []
  | call :: rest => catalog.happens call ++ (catalog.perform call).2.history rest

end Catalog

def UnitEntry.registration (entry : UnitEntry) : Registration :=
  ⟨entry.name, entry.version, entry.description⟩

namespace Catalog

variable {catalog catalog' : Catalog} {name : String} {call : CatalogCall} {entry : UnitEntry}

/-- What is registered, in the order of the entries. -/
def registrations (catalog : Catalog) : List Registration := catalog.entries.map (·.registration)

theorem names_eq : catalog.names = catalog.registrations.map (·.name) := by
  simp [names, registrations, UnitEntry.registration]

/-- The description of what is registered under a name. -/
def description? (catalog : Catalog) (name : String) : Option String :=
  (catalog.find? name).map (·.description)

theorem find?_registrations :
    catalog.registrations.find? (·.name == name) = (catalog.find? name).map (·.registration) := by
  rw [registrations, List.find?_map]
  rfl

/-- An entry whose name is free is registered behind the others. -/
theorem registrations_append_of_free (hfree : catalog.contains entry.name = false) :
    { catalog with entries := catalog.entries ++ [entry] }.registrations =
      CatalogEvent.applyTo catalog.registrations (.registered entry.registration) := by
  rw [CatalogEvent.applyTo_registered_of_notMem]
  · simp [registrations]
  · rw [← names_eq, ← contains_iff]
    exact Bool.eq_false_iff.mp hfree

theorem registrations_setSource {source : UnitSource} :
    (catalog.setSource name source).registrations = catalog.registrations := by
  unfold setSource registrations
  rw [List.map_map]
  congr 1
  funext entry
  rw [Function.comp_apply]
  split <;> rfl

theorem registrations_of_entries (h : catalog'.entries = catalog.entries) :
    catalog'.registrations = catalog.registrations := by
  rw [registrations, registrations, h]

theorem registrations_get : (catalog.get name).2.registrations = catalog.registrations := by
  rcases catalog.get_cases name
      with hget | ⟨unit, -, hget⟩ | ⟨entry, factory, asked, -, -, hasked, hget⟩
  · rw [hget]
  · rw [hget]
  · rcases hget with ⟨e, hget⟩ | ⟨made, hget⟩
    · rw [hget, registrations_of_entries hasked]
    · rw [hget, registrations_setSource, registrations_of_entries hasked]

theorem registrations_remove :
    (catalog.remove name).2.registrations =
      CatalogEvent.applyTo catalog.registrations (.removed name) := by
  have happly : CatalogEvent.applyTo catalog.registrations (.removed name) =
      (catalog.entries.filter (·.name != name)).map (·.registration) := by
    simp [CatalogEvent.applyTo, CatalogEvent.registration?, CatalogEvent.concerns, registrations,
      List.filter_map, Function.comp_def, UnitEntry.registration, bne, Bool.beq_comm]
  rw [happly, remove]
  split
  · rfl
  · rename_i hfree
    -- A name that is not registered is none of the entries'.
    have hall : catalog.entries.filter (·.name != name) = catalog.entries := by
      simpa [contains] using hfree
    rw [hall]
    rfl

/-- Registering a unit that is always there is a registration if its name is free. -/
theorem registrations_addBuiltin (unit : StepUnit) (description : String) :
    (catalog.addBuiltin unit description).registrations =
      if catalog.contains unit.name then catalog.registrations
      else CatalogEvent.applyTo catalog.registrations
        (.registered ⟨unit.name, "1.0.0", description⟩) := by
  unfold addBuiltin
  split
  · rfl
  · rename_i hfree
    have hfree : catalog.contains unit.name = false := by simpa using hfree
    exact registrations_append_of_free hfree

/-- Registering a unit that is always there takes no other name. -/
theorem contains_addBuiltin_of_ne {unit : StepUnit} {description : String}
    (hne : unit.name ≠ name) :
    (catalog.addBuiltin unit description).contains name = catalog.contains name := by
  unfold addBuiltin
  split
  · rfl
  · simp [contains, hne]

/-- What a registration comes to: an error, or the entry last. -/
theorem registrations_orUnchanged_add (entry : UnitEntry) :
    (catalog.contains entry.name = true ∧
      (∃ e, catalog.orUnchanged (catalog.add entry) = (.error e, catalog))) ∨
      catalog.contains entry.name = false ∧ ∃ changed, catalog.orUnchanged (catalog.add entry) =
        (.ok .done, changed) ∧
        changed.registrations =
          CatalogEvent.applyTo catalog.registrations (.registered entry.registration) := by
  cases hname : catalog.contains entry.name with
  | true => exact .inl ⟨rfl, _, by rw [add, if_pos hname]; rfl⟩
  | false =>
    exact .inr ⟨rfl, _, by
      rw [add, if_neg (by simp [hname])]; rfl, registrations_append_of_free hname⟩

/-- An error makes nothing happen, and changes no entry. -/
theorem registrations_of_error {e : Raised} (h : catalog.perform call = (.error e, catalog)) :
    (catalog.perform call).2.registrations =
      (catalog.happens call).foldl CatalogEvent.applyTo catalog.registrations := by
  rw [happens, h]
  rfl

/-- A call that adds an entry makes its registration happen, if its name is free. -/
theorem registrations_of_add
    (hperform : catalog.perform call = catalog.orUnchanged (catalog.add entry))
    (hevents : call.events = [.registered entry.registration]) :
    (catalog.perform call).2.registrations =
      (catalog.happens call).foldl CatalogEvent.applyTo catalog.registrations := by
  rcases catalog.registrations_orUnchanged_add entry
      with ⟨htaken, e, herror⟩ | ⟨hfree, changed, hok, hchanged⟩
  · exact registrations_of_error (hperform.trans herror)
  · have hname : catalog.contains entry.registration.name = false := hfree
    rw [happens, hperform.trans hok, hevents]
    simpa [CatalogEvent.registration?, hname] using hchanged

/-- **What a call does to the registrations** is what it makes happen. -/
theorem registrations_perform (call : CatalogCall) :
    (catalog.perform call).2.registrations =
      (catalog.happens call).foldl CatalogEvent.applyTo catalog.registrations := by
  cases call with
  | register name unit version description tags =>
    cases hbehaviour : unit.behaviour.isNone with
    | true => exact registrations_of_error (by rw [perform, register, if_pos hbehaviour]; rfl)
    | false =>
      have hadd : catalog.perform (.register name unit version description tags) =
          catalog.orUnchanged (catalog.add { name, version, source := .given unit,
                                             description, tags }) := by
        rw [perform, register, if_neg (by simp [hbehaviour])]
      exact registrations_of_add hadd rfl
  | addFunction name f version description tags => exact registrations_of_add rfl rfl
  | addFactory name factory version config description tags => exact registrations_of_add rfl rfl
  | remove name => exact registrations_remove
  | get name =>
    have hnothing : catalog.happens (.get name) = [] := by
      rw [happens]
      split <;> rfl
    rw [hnothing]
    exact registrations_get
  | clear =>
    simp [perform, happens, CatalogCall.events, CatalogEvent.registration?,
      CatalogEvent.applyTo, clear, registrations, CatalogEvent.concerns]
  | addBuiltins =>
    -- The two units have different names, so neither registration stands in the way of the other.
    have hlog : (catalog.addBuiltin Units.expression "Evaluates embedded expressions").contains
        "log" =
        catalog.contains "log" := contains_addBuiltin_of_ne (by decide)
    have hboth : (catalog.perform .addBuiltins).2.registrations =
        ((catalog.addBuiltin Units.expression "Evaluates embedded expressions").addBuiltin Units.log
          "Logs a message and passes its value through").registrations := rfl
    have hexpression : Units.expression.name = "expr" := rfl
    have hlogName : Units.log.name = "log" := rfl
    rw [hboth, registrations_addBuiltin, registrations_addBuiltin, hexpression, hlogName,
      hlog, happens]
    cases hexpr : catalog.contains "expr" <;> cases hlog : catalog.contains "log" <;>
      simp [perform, CatalogCall.events, CatalogEvent.registration?, hexpr, hlog]

/-- What a run of calls does to the registrations is what happens in it. -/
theorem registrations_run (calls : List CatalogCall) :
    (catalog.run calls).registrations =
      (catalog.history calls).foldl CatalogEvent.applyTo catalog.registrations := by
  induction calls generalizing catalog with
  | nil => rfl
  | cons call rest ih =>
    rw [history, List.foldl_append, ← registrations_perform]
    exact ih

/-- **No name comes twice** in a catalog that calls have filled. -/
theorem nodup_names_run (calls : List CatalogCall) (h : catalog.names.Nodup) :
    (catalog.run calls).names.Nodup := by
  rw [names_eq] at h ⊢
  rw [registrations_run]
  generalize catalog.history calls = events
  generalize catalog.registrations = registrations at h
  induction events generalizing registrations with
  | nil => exact h
  | cons event rest ih => exact ih _ (CatalogEvent.nodup_applyTo event h)

/-- An error changes no entry. -/
theorem entries_of_perform_error {e : Raised} (h : catalog.perform call = (.error e, catalog')) :
    catalog'.entries = catalog.entries := by
  -- A registration leaves the catalog as it is.
  have hunchanged : ∀ {result : Except Raised Catalog}, catalog.orUnchanged result =
      (.error e, catalog') →
      catalog'.entries = catalog.entries := by
    intro result hresult
    cases result with
    | ok changed => cases (Prod.mk.inj hresult).1
    | error e' => rw [← (Prod.mk.inj hresult).2]
  cases call with
  | register name unit version description tags => exact hunchanged h
  | addFunction name f version description tags => exact hunchanged h
  | addFactory name factory version config description tags => exact hunchanged h
  | remove name => cases (Prod.mk.inj h).1
  | clear => cases (Prod.mk.inj h).1
  | addBuiltins => cases (Prod.mk.inj h).1
  | get name =>
    rw [perform] at h
    rcases catalog.get_cases name
        with hget | ⟨unit, -, hget⟩ | ⟨entry, factory, asked, -, -, hasked, hget⟩
    · rw [hget] at h
      cases (Prod.mk.inj h).1
    · rw [hget] at h
      cases (Prod.mk.inj h).1
    · rcases hget with ⟨e', hget⟩ | ⟨made, hget⟩
      · rw [hget] at h
        rw [← (Prod.mk.inj h).2, hasked]
      · rw [hget] at h
        cases (Prod.mk.inj h).1

/-- Catalogs with the same entries have the same in their tables. -/
theorem tables_of_entries (h : catalog'.entries = catalog.entries) :
    catalog'.tables.infos = catalog.tables.infos ∧
      catalog'.tables.factories = catalog.tables.factories := by
  simp [tables, h]

/-- The two tables go along with a catalog through a run of calls. -/
theorem run_tables (calls : List CatalogCall) (h : catalog.names.Nodup) :
    catalog.tables.run calls = (catalog.run calls).tables := by
  induction calls generalizing catalog with
  | nil => rfl
  | cons call rest ih =>
    have hstep : (catalog.tables.perform call).2 = (catalog.perform call).2.tables := by
      rw [perform_tables h]; rfl
    have hnodup : (catalog.perform call).2.names.Nodup := nodup_names_run [call] h
    have hrest := ih hnodup
    rw [← hstep] at hrest
    exact hrest

end Catalog

namespace UnitTables

variable {tables tables' : UnitTables} {name : String}

/-- **A look-up in tables that belong together** raises no error but that of the factory. -/
theorem Consistent.get_error (h : tables.Consistent) {e : Raised}
    (hget : tables.get name = (.error e, tables')) :
    ∃ info factory, tables.find? name = some info ∧ tables.factories.lookup name = some factory ∧
      factory tables.builds.length info.config = .error e := by
  unfold get at hget
  cases hfind : tables.find? name with
  | none =>
    rw [hfind] at hget
    cases (Prod.mk.inj hget).1
  | some info =>
    simp only [hfind] at hget
    cases hunit : info.unit with
    | some unit =>
      simp only [hunit] at hget
      cases (Prod.mk.inj hget).1
    | none =>
      obtain ⟨factory, hfactory⟩ := h.buildable info (List.mem_of_find?_eq_some hfind) hunit
      have hname : info.name = name := by simpa using List.find?_some hfind
      rw [hname] at hfactory
      simp only [hunit, hfactory] at hget
      refine ⟨info, factory, rfl, hfactory, ?_⟩
      cases hmade : factory tables.builds.length info.config with
      | error e' =>
        rw [hmade] at hget
        exact (Prod.mk.inj hget).1
      | ok made =>
        rw [hmade] at hget
        cases (Prod.mk.inj hget).1

/-- Registering a unit that is always there leaves everything in the tables where it is. -/
theorem prefix_addBuiltin (tables : UnitTables) (unit : StepUnit) (description : String) :
    tables.infos <+: (tables.addBuiltin unit description).infos ∧
      (tables.addBuiltin unit description).factories = tables.factories := by
  unfold addBuiltin
  split
  · exact ⟨List.prefix_rfl, rfl⟩
  · rename_i hfree
    unfold register ensureFree
    rw [if_neg hfree]
    split
    · exact ⟨List.prefix_rfl, rfl⟩
    · refine ⟨?_, rfl⟩
      -- The name is free, so the new unit comes last.
      simp only [putBy]
      rw [if_neg (by simpa [contains] using hfree)]
      exact List.prefix_append ..

theorem prefix_addBuiltins (tables : UnitTables) :
    tables.infos <+: tables.addBuiltins.infos ∧ tables.addBuiltins.factories =
      tables.factories := by
  obtain ⟨hfirst, hfactories⟩ :=
    tables.prefix_addBuiltin Units.expression "Evaluates embedded expressions"
  obtain ⟨hsecond, hfactories'⟩ :=
    (tables.addBuiltin Units.expression "Evaluates embedded expressions").prefix_addBuiltin
      Units.log "Logs a message and passes its value through"
  exact ⟨hfirst.trans hsecond, hfactories'.trans hfactories⟩

end UnitTables

/-! ## §3 In order after every run of calls -/

/-- **A catalog and two tables are in order**, after some events. -/
structure Catalog.InOrder (catalog : Catalog) (tables : UnitTables)
    (events : List CatalogEvent) : Prop where
  /-- The tables are those of the catalog, and every further call is answered alike. -/
  same : tables = catalog.tables
  answers : ∀ call, (tables.perform call).1 = (catalog.perform call).1
  /-- A unit that has not been built has a factory, and every factory is that
  of a registered unit. -/
  consistent : tables.Consistent
  /-- So a look-up finds a factory, and raises no error but that of the factory. -/
  get_error : ∀ name e tables', tables.get name = (.error e, tables') →
    ∃ info factory, tables.find? name = some info ∧ tables.factories.lookup name = some factory ∧
      factory tables.builds.length info.config = .error e
  /-- Names, versions and descriptions are those of the latest registrations. -/
  names : catalog.names = (CatalogEvent.latest events).map (·.name)
  version : ∀ name, catalog.version? name =
    ((CatalogEvent.latest events).find? (·.name == name)).map (·.version)
  description : ∀ name,
    catalog.description? name =
      ((CatalogEvent.latest events).find? (·.name == name)).map (·.description)
  /-- A call that raises an error leaves everything that is registered as it is. -/
  error_tables : ∀ call e tables', tables.perform call = (.error e, tables') →
    tables'.infos = tables.infos ∧ tables'.factories = tables.factories
  error_entries : ∀ call e catalog', catalog.perform call = (.error e, catalog') →
    catalog'.entries = catalog.entries
  /-- What is registered stays where it is when the units that are always there are registered. -/
  builtins : tables.infos <+: tables.addBuiltins.infos ∧ tables.addBuiltins.factories =
    tables.factories

/-- **A catalog stays in order**: whatever calls are made on an empty catalog, in whatever order,
and whichever of them fail, the catalog and the two tables behind it are in order afterwards. -/
theorem Catalog.stays_in_order (calls : List CatalogCall) :
    (({} : Catalog).run calls).InOrder (({} : UnitTables).run calls)
      (({} : Catalog).history calls) := by
  have hnodup : (({} : Catalog).run calls).names.Nodup := nodup_names_run calls List.nodup_nil
  have hempty : ({} : Catalog).names.Nodup := List.nodup_nil
  have hsame : ({} : UnitTables).run calls = (({} : Catalog).run calls).tables :=
    run_tables calls hempty
  have hregistrations : (({} : Catalog).run calls).registrations =
      CatalogEvent.latest (({} : Catalog).history calls) := by
    rw [registrations_run, ← List.nil_append (history _ calls), CatalogEvent.latest_append]
    rfl
  rw [hsame]
  generalize ({} : Catalog).run calls = catalog at hnodup hregistrations ⊢
  generalize ({} : Catalog).history calls = events at hregistrations ⊢
  have hperform : ∀ call, catalog.tables.perform call = (catalog.perform call).map id tables :=
    perform_tables hnodup
  exact
    { same := rfl
      answers := fun call => by rw [hperform]; rfl
      consistent := consistent_tables hnodup
      get_error := fun name e tables' hget => (consistent_tables hnodup).get_error hget
      names := by rw [names_eq, hregistrations]
      version := fun name => by
        rw [← hregistrations, find?_registrations, Option.map_map]
        rfl
      description := fun name => by
        rw [← hregistrations, find?_registrations, Option.map_map]
        rfl
      error_tables := fun call e tables' herror => by
        rw [hperform] at herror
        obtain ⟨hresult, rfl⟩ := Prod.mk.inj herror
        have hentries : (catalog.perform call).2.entries = catalog.entries :=
          entries_of_perform_error (Prod.ext hresult rfl)
        exact tables_of_entries hentries
      error_entries := fun call e catalog' => entries_of_perform_error
      builtins := catalog.tables.prefix_addBuiltins }

end Switchyard
