import Switchyard.Binding.Basic
import Switchyard.Cache

/-!
# Compiling configuration

Every expression is read when its configuration is compiled, each distinct source once as long as
the cache holds it. A part without expressions becomes a single literal and stays as it was written;
a container with an expression in it is rebuilt, with the keys of maps as texts.
-/

namespace Switchyard

abbrev SourceCache := Cache Expression

/-- A computation that reads expressions through a cache and may be interrupted. -/
abbrev Compilation (α : Type) := ExceptT Raised (StateM SourceCache) α

namespace Binding

/-- Reads an expression through the cache. -/
def readCached (source : String) : Compilation Expression :=
  fun cache => cache.fetch Expression.parse source

mutual

/-- Compiles a raw value. -/
def compile : Value → Compilation Binding
  | .atom (.marker source) => do pure (.expression (← readCached source))
  | .atom s => pure (.literal (.atom s))
  | .shared address => pure (.literal (.shared address))
  | .list items => do
    let bindings ← compileItems items
    pure (if bindings.all isLiteral then .literal (.list items) else .list bindings)
  | .tuple items => do
    let bindings ← compileItems items
    -- A tuple with an expression in it becomes a list when it is resolved.
    pure (if bindings.all isLiteral then .literal (.tuple items) else .list bindings)
  | .map entries =>
    -- A map that marks a source is an expression, whatever else it could be.
    match markedSource? (.map entries) with
    | some source => do pure (.expression (← readCached source))
    | none => do
      let bindings ← compileEntries entries
      pure (if bindings.all (·.2.isLiteral) then .literal (.map entries) else .map bindings)

/-- Compiles the items of a sequence from left to right. -/
def compileItems : List Value → Compilation (List Binding)
  | [] => pure []
  | v :: rest => do
    let b ← compile v
    let bs ← compileItems rest
    pure (b :: bs)

/-- Compiles the values of a map in the order of its entries. -/
def compileEntries : List (Scalar × Value) → Compilation (List (String × Binding))
  | [] => pure []
  | (k, v) :: rest => do
    let b ← compile v
    let bs ← compileEntries rest
    pure ((k.shown, b) :: bs)

end

/-- Compiles the configuration of a step, which has to be a map or nothing. Each of its entries is
compiled on its own; the map itself is no marker. -/
def compileRecord (raw : Value) : Compilation (List (String × Binding)) :=
  match raw with
  | .map entries => compileEntries entries
  | v =>
    -- Anything that counts as empty is taken for no configuration.
    if Store.empty.isPresent v then
      throw (.broken "AttributeError"
        ("'" ++ v.typeName .empty ++ "' object has no attribute 'items'"))
    else pure []

end Binding

end Switchyard
