import Mathlib.Data.List.Nodup
import Switchyard.Proofs.Pipeline.Rebuild

/-!
# The catalog as two tables

A catalog can be kept as two tables beside each other: what is known of each registered unit, with
the unit as far as it has been built, and the factories of those units that are built when they are
first looked up. Nothing in the form of the tables says that they belong together: a unit that was
not built could lack its factory, and a factory its unit. The catalog has one entry for both, and
these two tables are what its entries come to.

Main statements: a call does to the two tables of a catalog what it does to the catalog
(`Catalog.perform_tables`), and the tables of a catalog belong together
(`Catalog.consistent_tables`).
-/

namespace Switchyard

/-! ## §1 Calls -/

/-- **A call** that changes a catalog or looks something up in it. -/
inductive CatalogCall
  | register (name : String) (unit : StepUnit) (version description : String) (tags : List String)
  | addFunction (name : String) (f : Function) (version description : String) (tags : List String)
  | addFactory (name : String) (factory : Factory) (version : String) (config : Value)
      (description : String) (tags : List String)
  | remove (name : String)
  | get (name : String)
  | clear
  | addBuiltins

/-- What a call answers, unless it raises an error. -/
inductive CatalogAnswer
  | done
  | removed (was : Bool)
  | found (unit : Option StepUnit)

namespace Catalog

/-- A registration that raises an error changes nothing. -/
def orUnchanged (catalog : Catalog) : Except Raised Catalog → Except Raised CatalogAnswer × Catalog
  | .ok changed => (.ok .done, changed)
  | .error e => (.error e, catalog)

/-- **What a call does to a catalog**, and what it answers. -/
def perform (catalog : Catalog) : CatalogCall → Except Raised CatalogAnswer × Catalog
  | .register name unit version description tags =>
    catalog.orUnchanged (catalog.register name unit version description tags)
  | .addFunction name f version description tags =>
    catalog.orUnchanged (catalog.addFunction name f version description tags)
  | .addFactory name factory version config description tags =>
    catalog.orUnchanged (catalog.addFactory name factory version config description tags)
  | .remove name => ((.ok (.removed (catalog.remove name).1)), (catalog.remove name).2)
  | .get name => ((catalog.get name).1.map .found, (catalog.get name).2)
  | .clear => (.ok .done, catalog.clear)
  | .addBuiltins => (.ok .done, catalog.addBuiltins)

/-- The catalog after some calls. -/
def run (catalog : Catalog) (calls : List CatalogCall) : Catalog :=
  calls.foldl (fun catalog call => (catalog.perform call).2) catalog

end Catalog

/-! ## §2 Two tables -/

/-- What is known of a registered unit, with the unit itself if there is one yet. -/
structure UnitInfo where
  name : String
  version : String
  unit : Option StepUnit
  config : Value := .null
  description : String := ""
  tags : List String := []

/-- **Two tables**: the registered units and the factories, each by name. -/
@[ext]
structure UnitTables where
  infos : List UnitInfo := []
  factories : List (String × Factory) := []
  /-- The configurations that factories were called with. -/
  builds : List Value := []
  log : List LogLine := []

/-- Puts an element into a table: in the place of the one with its key, or last. -/
def putBy {α : Type} (key : α → String) (x : α) (table : List α) : List α :=
  if table.any (key · == key x) then table.map fun y => if key y == key x then x else y
  else table ++ [x]

namespace UnitTables

def find? (tables : UnitTables) (name : String) : Option UnitInfo :=
  tables.infos.find? (·.name == name)

def contains (tables : UnitTables) (name : String) : Bool := tables.infos.any (·.name == name)

/-- Raises an error unless a name is free. -/
def ensureFree (tables : UnitTables) (name : String) : Except Raised Unit :=
  if tables.contains name then
    .error (.refused "ValueError"
      ("Unit '" ++ name ++ "' is already registered. Use unregister() first."))
  else .ok ()

def register (tables : UnitTables) (name : String) (unit : StepUnit) (version : String := "1.0.0")
    (description : String := "") (tags : List String := []) :
      Except Raised CatalogAnswer × UnitTables :=
  if unit.behaviour.isNone then
    (.error (.refused "TypeError"
      ("Unit '" ++ name ++ "' does not implement invoke(config, context)")), tables)
  else
    match tables.ensureFree name with
    | .error e => (.error e, tables)
    | .ok () =>
      (.ok .done, { tables with
        infos :=
          putBy (·.name) { name, version, unit := some unit, description, tags } tables.infos })

def addFunction (tables : UnitTables) (name : String) (f : Function) (version : String)
    (description : String) (tags : List String) : Except Raised CatalogAnswer × UnitTables :=
  tables.register name (f.toUnit name) version
    (if description = "" then Text.strip f.note else description) tags

/-- Registers a name in the first table and its factory in the second. -/
def addFactory (tables : UnitTables) (name : String) (factory : Factory) (version : String)
    (config : Value) (description : String) (tags : List String) :
    Except Raised CatalogAnswer × UnitTables :=
  match tables.ensureFree name with
  | .error e => (.error e, tables)
  | .ok () =>
    let tables := { tables with
      infos :=
        putBy (·.name) { name, version, unit := none, config, description, tags } tables.infos }
    (.ok .done, { tables with factories := putBy (·.1) (name, factory) tables.factories })

/-- Removes a name from the first table, and its factory from the second if there is one. -/
def remove (tables : UnitTables) (name : String) : Bool × UnitTables :=
  if !tables.contains name then
    (false, { tables with log := tables.log ++
      [⟨"registry.unit_registry", .warning, "Cannot unregister: unit '" ++ name ++ "' not found"⟩]
        })
  else
    let tables := { tables with infos := tables.infos.filter (·.name != name) }
    (true, { tables with factories := tables.factories.filter (·.1 != name) })

/-- Keeps a unit that was built. -/
def setUnit (tables : UnitTables) (name : String) (unit : Option StepUnit) : UnitTables :=
  { tables with infos := tables.infos.map fun info => if info.name == name then
    { info with unit } else info }

/-- Looks a unit up in the first table. If it has not been built, the second table
must have its factory. -/
def get (tables : UnitTables) (name : String) : Except Raised (Option StepUnit) × UnitTables :=
  match tables.find? name with
  | none => (.ok none, tables)
  | some info => match info.unit with
    | some unit => (.ok (some unit), tables)
    | none => match tables.factories.lookup name with
      | none => (.error (.broken "KeyError" (Text.quoted name)), tables)
      | some factory =>
        let asked := { tables with builds := tables.builds ++ [info.config] }
        match factory tables.builds.length info.config with
        | .error e => (.error e, asked)
        | .ok made => (.ok made, asked.setUnit name made)

def clear (tables : UnitTables) : UnitTables := { tables with infos := [], factories := [] }

/-- Registers a unit that is always there, unless its name is taken. -/
def addBuiltin (tables : UnitTables) (unit : StepUnit) (description : String) : UnitTables :=
  if tables.contains unit.name then tables
  else (tables.register unit.name unit "1.0.0" description ["builtin"]).2

def addBuiltins (tables : UnitTables) : UnitTables :=
  (tables.addBuiltin Units.expression "Evaluates embedded expressions").addBuiltin
    Units.log "Logs a message and passes its value through"

/-- **What a call does to the two tables**, and what it answers. -/
def perform (tables : UnitTables) : CatalogCall → Except Raised CatalogAnswer × UnitTables
  | .register name unit version description tags =>
    tables.register name unit version description tags
  | .addFunction name f version description tags =>
    tables.addFunction name f version description tags
  | .addFactory name factory version config description tags =>
    tables.addFactory name factory version config description tags
  | .remove name => ((.ok (.removed (tables.remove name).1)), (tables.remove name).2)
  | .get name => ((tables.get name).1.map .found, (tables.get name).2)
  | .clear => (.ok .done, tables.clear)
  | .addBuiltins => (.ok .done, tables.addBuiltins)

/-- The two tables after some calls. -/
def run (tables : UnitTables) (calls : List CatalogCall) : UnitTables :=
  calls.foldl (fun tables call => (tables.perform call).2) tables

/-- **The tables belong together**: no name comes twice, a unit that has not been built has a
factory, and every factory is that of a registered unit. -/
structure Consistent (tables : UnitTables) : Prop where
  distinct : (tables.infos.map (·.name)).Nodup
  buildable : ∀ info ∈ tables.infos, info.unit = none →
    ∃ factory, tables.factories.lookup info.name = some factory
  registered : ∀ name factory, (name, factory) ∈ tables.factories →
    ∃ info ∈ tables.infos, info.name = name

end UnitTables

/-! ## §3 The tables of a catalog -/

namespace UnitEntry

/-- What the first table has for an entry. -/
def info (entry : UnitEntry) : UnitInfo :=
  ⟨entry.name, entry.version, entry.unit?, entry.config, entry.description, entry.tags⟩

/-- What the second table has for an entry. -/
def factory? (entry : UnitEntry) : Option (String × Factory) :=
  match entry.source with
  | .given _ => none
  | .built factory _ => some (entry.name, factory)

@[simp] theorem name_info (entry : UnitEntry) : entry.info.name = entry.name := rfl

theorem name_of_factory? {entry : UnitEntry} {name : String} {factory : Factory}
    (h : entry.factory? = some (name, factory)) : entry.name = name := by
  unfold factory? at h
  split at h
  · cases h
  · exact (Prod.mk.inj (Option.some.inj h)).1

end UnitEntry

namespace Catalog

variable {catalog : Catalog} {name : String} {entry : UnitEntry} {call : CatalogCall}

/-- **The two tables of a catalog.** -/
def tables (catalog : Catalog) : UnitTables where
  infos := catalog.entries.map (·.info)
  factories := catalog.entries.filterMap (·.factory?)
  builds := catalog.builds
  log := catalog.log

@[simp] theorem contains_tables : catalog.tables.contains name = catalog.contains name := by
  simp [UnitTables.contains, contains, tables, Function.comp_def]

@[simp] theorem find?_tables : catalog.tables.find? name = (catalog.find? name).map (·.info) := by
  simp [UnitTables.find?, find?, tables, List.find?_map, Function.comp_def]

theorem contains_iff : catalog.contains name = true ↔ name ∈ catalog.names := by
  simp [contains, names]

/-- An entry is found under its name if no name comes twice. -/
theorem find?_of_mem (hdistinct : catalog.names.Nodup) (h : entry ∈ catalog.entries) :
    catalog.find? entry.name = some entry := by
  cases hfind : catalog.find? entry.name with
  | none => simpa using List.find?_eq_none.mp hfind entry h
  | some other =>
    rw [List.inj_on_of_nodup_map hdistinct (List.mem_of_find?_eq_some hfind) h
      (name_of_find? hfind)]

/-- A name that no entry has is not in the second table. -/
theorem lookup_factories_of_notMem {entries : List UnitEntry} (h : name ∉ entries.map (·.name)) :
    (entries.filterMap (·.factory?)).lookup name = none := by
  rw [List.lookup_eq_none_iff]
  rintro ⟨key, factory⟩ hmem
  obtain ⟨entry, hentry, hfactory⟩ := List.mem_filterMap.mp hmem
  rw [bne_iff_ne]
  rintro rfl
  exact h (List.mem_map.mpr ⟨entry, hentry, UnitEntry.name_of_factory? hfactory⟩)

theorem lookup_factories_of_mem {entries : List UnitEntry}
    (hdistinct : (entries.map (·.name)).Nodup) (h : entry ∈ entries) :
    (entries.filterMap (·.factory?)).lookup entry.name = entry.factory?.map (·.2) := by
  induction entries with
  | nil => cases h
  | cons first rest ih =>
    obtain ⟨hnew, hrest⟩ := List.nodup_cons.mp hdistinct
    rcases List.mem_cons.mp h with rfl | hmem
    · cases hfactory : entry.factory? with
      | none =>
        rw [List.filterMap_cons_none hfactory, lookup_factories_of_notMem hnew, Option.map_none]
      | some pair =>
        obtain ⟨key, factory⟩ := pair
        rw [List.filterMap_cons_some hfactory, UnitEntry.name_of_factory? hfactory,
          List.lookup_cons_self, Option.map_some]
    · -- The first entry has another name, so its factory is passed over.
      have hother : entry.name ≠ first.name :=
        fun hsame => hnew (List.mem_map.mpr ⟨entry, hmem, hsame⟩)
      cases hfactory : first.factory? with
      | none => rw [List.filterMap_cons_none hfactory, ih hrest hmem]
      | some pair =>
        obtain ⟨key, factory⟩ := pair
        obtain rfl := UnitEntry.name_of_factory? hfactory
        rw [List.filterMap_cons_some hfactory, List.lookup_cons, beq_eq_false_iff_ne.mpr hother,
          ih hrest hmem]

/-- The second table has the factory of the entry of a name. -/
theorem lookup_factories_tables (hdistinct : catalog.names.Nodup)
    (h : catalog.find? name = some entry) :
    catalog.tables.factories.lookup name = entry.factory?.map (·.2) := by
  obtain rfl := name_of_find? h
  exact lookup_factories_of_mem hdistinct (List.mem_of_find?_eq_some h)

/-- **The tables of a catalog belong together.** -/
theorem consistent_tables (hdistinct : catalog.names.Nodup) : catalog.tables.Consistent where
  distinct := by simpa [tables, names, Function.comp_def] using hdistinct
  buildable := by
    intro info hinfo hunbuilt
    obtain ⟨entry, hentry, rfl⟩ := List.mem_map.mp hinfo
    rw [UnitEntry.name_info, lookup_factories_tables hdistinct (find?_of_mem hdistinct hentry)]
    -- A unit that was given is there, so this one has a factory.
    cases hsource : entry.source with
    | given unit =>
      rw [UnitEntry.info, UnitEntry.unit?, hsource] at hunbuilt
      cases hunbuilt
    | built factory made => exact ⟨factory, by rw [UnitEntry.factory?, hsource, Option.map_some]⟩
  registered := by
    intro name factory hfactory
    obtain ⟨entry, hentry, hsome⟩ := List.mem_filterMap.mp hfactory
    exact ⟨entry.info, List.mem_map_of_mem hentry, UnitEntry.name_of_factory? hsome⟩

/-! ## §4 Calls on both forms -/

theorem putBy_of_notMem {α : Type} {key : α → String} {x : α} {table : List α}
    (h : key x ∉ table.map key) : putBy key x table = table ++ [x] := by
  apply if_neg
  rw [List.any_eq_true]
  rintro ⟨y, hy, hkey⟩
  exact h (List.mem_map.mpr ⟨y, hy, by simpa using hkey⟩)

/-- A name that is free comes last in the first table. -/
theorem putBy_infos_tables {info : UnitInfo} (hfree : catalog.contains info.name = false) :
    putBy (·.name) info catalog.tables.infos = catalog.tables.infos ++ [info] := by
  apply putBy_of_notMem
  have hnames : catalog.tables.infos.map (·.name) = catalog.names := by
    simp [tables, names, Function.comp_def]
  rw [hnames, ← contains_iff, hfree]
  exact Bool.false_ne_true

/-- A name that is free in the first table comes last in the second. -/
theorem putBy_factories_tables {pair : String × Factory} (hfree : catalog.contains pair.1 = false) :
    putBy (·.1) pair catalog.tables.factories = catalog.tables.factories ++ [pair] := by
  apply putBy_of_notMem
  intro hmem
  obtain ⟨⟨key, factory⟩, hfactory, hkey⟩ := List.mem_map.mp hmem
  obtain ⟨entry, hentry, hsome⟩ := List.mem_filterMap.mp hfactory
  rw [← Bool.not_eq_true, contains_iff] at hfree
  exact hfree (List.mem_map.mpr ⟨entry, hentry, (UnitEntry.name_of_factory? hsome).trans hkey⟩)

theorem ensureFree_tables_of_free (hfree : catalog.contains name = false) :
    catalog.tables.ensureFree name = .ok () := by
  simp [UnitTables.ensureFree, hfree]

theorem ensureFree_tables_of_taken (htaken : catalog.contains name = true) :
    catalog.tables.ensureFree name =
      .error (.refused "ValueError"
        ("Unit '" ++ name ++ "' is already registered. Use unregister() first.")) := by
  simp [UnitTables.ensureFree, htaken]

/-- A given unit goes into the first table only. -/
theorem register_tables (name : String) (unit : StepUnit) (version description : String)
    (tags : List String) : catalog.tables.register name unit version description tags =
      (catalog.orUnchanged (catalog.register name unit version description tags)).map
        id tables := by
  unfold UnitTables.register register
  split
  · rfl
  · cases htaken : catalog.contains name with
    | true =>
      simp only [ensureFree_tables_of_taken htaken, add, htaken]
      rfl
    | false =>
      simp only [ensureFree_tables_of_free htaken, putBy_infos_tables, add, htaken]
      simp [orUnchanged, tables, UnitEntry.info, UnitEntry.unit?, UnitEntry.factory?]

/-- A factory goes into the second table, under a name that the first one has too. -/
theorem addFactory_tables (name : String) (factory : Factory) (version : String) (config : Value)
    (description : String) (tags : List String) :
    catalog.tables.addFactory name factory version config description tags =
      (catalog.orUnchanged (catalog.addFactory name factory version config description tags)).map
        id tables := by
  unfold UnitTables.addFactory addFactory
  cases htaken : catalog.contains name with
  | true =>
    simp only [ensureFree_tables_of_taken htaken, add, htaken]
    rfl
  | false =>
    simp only [ensureFree_tables_of_free htaken, putBy_infos_tables,
      putBy_factories_tables, add, htaken]
    simp [orUnchanged, tables, UnitEntry.info, UnitEntry.unit?, UnitEntry.factory?]

theorem remove_tables (name : String) :
    catalog.tables.remove name = (catalog.remove name).map id tables := by
  unfold UnitTables.remove remove
  rw [contains_tables]
  cases hthere : catalog.contains name with
  | false => rfl
  | true =>
    have hinfos : catalog.tables.infos.filter (·.name != name) =
        (catalog.entries.filter (·.name != name)).map (·.info) := by
      simp [tables, List.filter_map, Function.comp_def]
    have hfactories : catalog.tables.factories.filter (·.1 != name) =
        (catalog.entries.filter (·.name != name)).filterMap (·.factory?) := by
      simp only [tables, List.filter_filterMap, List.filterMap_filter]
      congr 1
      funext entry
      -- The factory of an entry has its name.
      cases hsource : entry.source <;> simp [UnitEntry.factory?, hsource, Option.filter]
    simp only [hinfos, hfactories]
    rfl

/-- What a factory made is kept in the first table, and the second one stays as it is. -/
theorem setUnit_tables (hdistinct : catalog.names.Nodup) {factory : Factory}
    {made : Option StepUnit} (h : catalog.find? name = some entry)
    (hsource : entry.source = .built factory none) :
    catalog.tables.setUnit name made = (catalog.setSource name (.built factory made)).tables := by
  have hinfos : (catalog.tables.setUnit name made).infos =
      (catalog.setSource name (.built factory made)).tables.infos := by
    simp only [UnitTables.setUnit, setSource, tables, List.map_map]
    congr 1
    funext entry
    by_cases hname : entry.name = name <;> simp [hname, UnitEntry.info, UnitEntry.unit?]
  have hfactories : (catalog.setSource name (.built factory made)).tables.factories =
      catalog.tables.factories := by
    simp only [setSource, tables, List.filterMap_map]
    apply List.filterMap_congr
    intro other hother
    rw [Function.comp_apply]
    split
    · rename_i hname
      -- The entry of the name is the one whose factory was asked.
      have hsame := find?_of_mem hdistinct hother
      rw [beq_iff_eq.mp hname] at hsame
      obtain rfl := Option.some.inj (hsame.symm.trans h)
      simp [UnitEntry.factory?, hsource]
    · rfl
  exact UnitTables.ext hinfos hfactories.symm rfl rfl

/-- **A unit is looked up in the tables** as it is in the catalog. In particular its
factory is never missing. -/
theorem get_tables (hdistinct : catalog.names.Nodup) (name : String) :
    catalog.tables.get name = (catalog.get name).map id tables := by
  unfold UnitTables.get get
  rw [find?_tables]
  cases hentry : catalog.find? name with
  | none => rfl
  | some entry =>
    cases hsource : entry.source with
    | given unit => simp [UnitEntry.info, UnitEntry.unit?, hsource]
    | built factory made =>
      cases made with
      | some unit => simp [UnitEntry.info, UnitEntry.unit?, hsource]
      | none =>
        have hlookup : catalog.tables.factories.lookup name = some factory := by
          rw [lookup_factories_tables hdistinct hentry, UnitEntry.factory?, hsource,
            Option.map_some]
        -- That the factory was asked changes no entry.
        let asked : Catalog := { catalog with builds := catalog.builds ++ [entry.config] }
        have hasked : asked.find? name = some entry := hentry
        have hset : ∀ made, asked.tables.setUnit name made =
            (asked.setSource name (.built factory made)).tables :=
          fun made => setUnit_tables (show asked.names.Nodup from hdistinct) hasked hsource
        have hbuilds : catalog.tables.builds = catalog.builds := rfl
        simp only [Option.map_some, UnitEntry.info, UnitEntry.unit?, hsource, hlookup, hbuilds]
        cases factory catalog.builds.length entry.config with
        | error e => rfl
        | ok made => exact Prod.ext rfl (hset made)

theorem addBuiltin_tables (unit : StepUnit) (description : String)
    (hcallable : unit.behaviour.isSome) :
    catalog.tables.addBuiltin unit description = (catalog.addBuiltin unit description).tables := by
  unfold UnitTables.addBuiltin addBuiltin
  rw [contains_tables]
  split
  · rfl
  · rename_i hfree
    have hbehaviour : unit.behaviour.isNone = false := by simpa using hcallable
    simp only [register_tables, register, hbehaviour, add, Bool.eq_false_iff.mpr hfree]
    rfl

/-- **What a call does to the two tables** of a catalog is what it does to the catalog, and
it answers the same. -/
theorem perform_tables (hdistinct : catalog.names.Nodup) (call : CatalogCall) :
    catalog.tables.perform call = (catalog.perform call).map id tables := by
  cases call with
  | register name unit version description tags =>
    exact register_tables name unit version description tags
  | addFunction name f version description tags =>
    exact register_tables name (f.toUnit name) version _ tags
  | addFactory name factory version config description tags =>
    exact addFactory_tables name factory version config description tags
  | remove name => simp [UnitTables.perform, perform, remove_tables]
  | get name => simp [UnitTables.perform, perform, get_tables hdistinct]
  | clear => rfl
  | addBuiltins =>
    simp only [UnitTables.perform, perform, UnitTables.addBuiltins, addBuiltins]
    rw [addBuiltin_tables Units.expression _ rfl, addBuiltin_tables Units.log _ rfl]
    rfl

end Catalog

end Switchyard
