import Switchyard.Text.Blank
import Switchyard.Units.Builtin
import Switchyard.Units.Function

/-!
# The catalog of units

Units are registered under the names by which steps refer to them, in the order of their
registration. A unit is given as such, or by a factory that builds it when it is first looked up. A
factory that yields nothing is asked again at the next look-up.

A factory is given its configuration and does not get at the catalog, so it can neither register nor
look up units while it builds one.
-/

namespace Switchyard

/-- Builds a unit from its configuration. `attempt` counts the builds that the catalog
has asked for before. -/
abbrev Factory := (attempt : Nat) → (config : Value) → Except Raised (Option StepUnit)

/-- Where the unit of an entry comes from. -/
inductive UnitSource
  | given (unit : StepUnit)
  | built (factory : Factory) (made : Option StepUnit)

/-- A registered unit. -/
structure UnitEntry where
  name : String
  version : String := "1.0.0"
  source : UnitSource
  config : Value := .null
  description : String := ""
  tags : List String := []

namespace UnitEntry

/-- The unit of an entry, as far as it exists. -/
def unit? (entry : UnitEntry) : Option StepUnit :=
  match entry.source with
  | .given unit => some unit
  | .built _ made => made

end UnitEntry

/-- The registered units, and what happened to them. -/
structure Catalog where
  entries : List UnitEntry := []
  /-- The configurations that factories were called with. -/
  builds : List Value := []
  log : List LogLine := []

namespace Catalog

def find? (catalog : Catalog) (name : String) : Option UnitEntry :=
  catalog.entries.find? (·.name == name)

def contains (catalog : Catalog) (name : String) : Bool := catalog.entries.any (·.name == name)

/-- The registered names, in the order of their registration. -/
def names (catalog : Catalog) : List String := catalog.entries.map (·.name)

def version? (catalog : Catalog) (name : String) : Option String :=
  (catalog.find? name).map (·.version)

/-- Adds an entry whose name is free. -/
def add (catalog : Catalog) (entry : UnitEntry) : Except Raised Catalog :=
  if catalog.contains entry.name then
    .error (.refused "ValueError"
      ("Unit '" ++ entry.name ++ "' is already registered. Use unregister() first."))
  else .ok { catalog with entries := catalog.entries ++ [entry] }

/-- Registers a unit, which must be one that can be called. -/
def register (catalog : Catalog) (name : String) (unit : StepUnit) (version : String := "1.0.0")
    (description : String := "") (tags : List String := []) : Except Raised Catalog :=
  if unit.behaviour.isNone then
    .error (.refused "TypeError"
      ("Unit '" ++ name ++ "' does not implement invoke(config, context)"))
  else catalog.add { name, version, source := .given unit, description, tags }

/-- Registers a function. Without a description it is described by its note. -/
def addFunction (catalog : Catalog) (name : String) (f : Function) (version : String := "1.0.0")
    (description : String := "") (tags : List String := []) : Except Raised Catalog :=
  catalog.register name (f.toUnit name) version
    (if description = "" then Text.strip f.note else description) tags

def addFactory (catalog : Catalog) (name : String) (factory : Factory) (version : String)
    (config : Value) (description : String := "") (tags : List String := []) :
    Except Raised Catalog :=
  catalog.add { name, version, source := .built factory none, config, description, tags }

/-- Removes a name, and tells whether it was registered. -/
def remove (catalog : Catalog) (name : String) : Bool × Catalog :=
  if catalog.contains name then
    (true, { catalog with entries := catalog.entries.filter (·.name != name) })
  else
    (false, { catalog with log := catalog.log ++
      [⟨"registry.unit_registry", .warning, "Cannot unregister: unit '" ++ name ++ "' not found"⟩]
        })

def clear (catalog : Catalog) : Catalog := { catalog with entries := [] }

/-- The catalog with another source for a name. -/
def setSource (catalog : Catalog) (name : String) (source : UnitSource) : Catalog :=
  { catalog with entries := catalog.entries.map fun entry =>
      if entry.name == name then { entry with source } else entry }

/-- Looks up the unit of a name, which is built now if that has not been done. -/
def get (catalog : Catalog) (name : String) : Except Raised (Option StepUnit) × Catalog :=
  match catalog.find? name with
  | none => (.ok none, catalog)
  | some entry => match entry.source with
    | .given unit => (.ok (some unit), catalog)
    | .built _ (some unit) => (.ok (some unit), catalog)
    | .built factory none =>
      let asked := { catalog with builds := catalog.builds ++ [entry.config] }
      match factory catalog.builds.length entry.config with
      | .ok made => (.ok made, asked.setSource name (.built factory made))
      | .error e => (.error e, asked)

/-- Registers a unit that is always there, unless its name is taken. -/
def addBuiltin (catalog : Catalog) (unit : StepUnit) (description : String) : Catalog :=
  if catalog.contains unit.name then catalog
  else
    { catalog with entries := catalog.entries ++
        [{ name := unit.name, source := .given unit, description, tags := ["builtin"] }] }

/-- Registers the units that are always there, as far as their names are free. -/
def addBuiltins (catalog : Catalog) : Catalog :=
  (catalog.addBuiltin Units.expression "Evaluates embedded expressions").addBuiltin
    Units.log "Logs a message and passes its value through"

end Catalog

end Switchyard
