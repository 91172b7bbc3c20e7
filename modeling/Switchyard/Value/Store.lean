import Switchyard.Value.Basic

/-!
# The store of shared containers

Containers that can change while several holders see them live in cells of a store; a datum refers
to a cell by its address. Laying out a tree of data makes a fresh cell for each of its lists and
maps, so a later change of one copy cannot reach another.

A *view* is a map that its holders can read but not change; the engine that owns it may.
-/

namespace Switchyard

/-- A container in the store. -/
inductive Cell
  | list (items : List Value)
  | map (entries : Entries)
  | view (entries : Entries)
  deriving Inhabited

/-- The shared containers, by address. -/
structure Store where
  cells : Array Cell
  deriving Inhabited

/-- What a value shows to a reader who does not care where it is kept. -/
inductive Shape
  | scalar (s : Scalar)
  | sequence (items : List Value)
  | mapping (entries : Entries)

namespace Store

def empty : Store := ⟨#[]⟩

/-- The container at an address. -/
def cell? (σ : Store) (address : Nat) : Option Cell := σ.cells[address]?

/-- A new container, and its address. -/
def alloc (σ : Store) (cell : Cell) : Value × Store :=
  (.shared σ.cells.size, ⟨σ.cells.push cell⟩)

/-- The store with another container at an address. -/
def set (σ : Store) (address : Nat) (cell : Cell) : Store := ⟨σ.cells.setIfInBounds address cell⟩

/-- The shape of a value: lists and tuples are sequences, maps and views are mappings. -/
def shape (σ : Store) : Value → Shape
  | .atom s => .scalar s
  | .list items | .tuple items => .sequence items
  | .map entries => .mapping entries
  | .shared address => match σ.cell? address with
    | some (.list items) => .sequence items
    | some (.map entries) | some (.view entries) => .mapping entries
    | none => .scalar .null

mutual

/-- Lays out a value, its parts first. -/
def layOutValue : Value → Store → Value × Store
  | .atom s, σ => (.atom s, σ)
  | .shared address, σ => (.shared address, σ)
  | .tuple items, σ =>
    let (items, σ) := layOutItems items σ
    (.tuple items, σ)
  | .list items, σ =>
    let (items, σ) := layOutItems items σ
    σ.alloc (.list items)
  | .map entries, σ =>
    let (entries, σ) := layOutEntries entries σ
    σ.alloc (.map entries)

/-- Lays out the items of a sequence from left to right. -/
def layOutItems : List Value → Store → List Value × Store
  | [], σ => ([], σ)
  | v :: rest, σ =>
    let (v, σ) := layOutValue v σ
    let (rest, σ) := layOutItems rest σ
    (v :: rest, σ)

/-- Lays out the values of a map in the order of its entries. -/
def layOutEntries : List (Scalar × Value) → Store → List (Scalar × Value) × Store
  | [], σ => ([], σ)
  | (k, v) :: rest, σ =>
    let (v, σ) := layOutValue v σ
    let (rest, σ) := layOutEntries rest σ
    ((k, v) :: rest, σ)

end

/-- The value with every list and map of its own in a fresh cell. -/
def layOut (σ : Store) (v : Value) : Value × Store := layOutValue v σ

/-- The entries of a value that is a map, wherever it is kept. -/
def entries? (σ : Store) (v : Value) : Option Entries :=
  match σ.shape v with
  | .mapping entries => some entries
  | _ => none

/-- Whether a value counts as present: null, false, zero and everything empty do not. -/
def isPresent (σ : Store) (v : Value) : Bool :=
  match σ.shape v with
  | .scalar s => s.isPresent
  | .sequence items => !items.isEmpty
  | .mapping entries => !entries.isEmpty

end Store

end Switchyard
