import Switchyard.Value.Store

/-!
# Snapshots

A snapshot is what a value shows at one moment, without any shared container. A map met again inside
itself is left out and marked as such.
-/

namespace Switchyard.Value

/-- The sign for a map that is met again inside itself. -/
def again : Value := .atom (.foreign "again" "again")

mutual

/-- The snapshot of a value, given those of the shared containers in it. -/
def snapshotWith (shared : Nat → Value) : Value → Value
  | .atom s => .atom s
  | .list items => .list (snapshotItems shared items)
  | .tuple items => .tuple (snapshotItems shared items)
  | .map entries => .map (snapshotEntries shared entries)
  | .shared address => shared address

def snapshotItems (shared : Nat → Value) : List Value → List Value
  | [] => []
  | v :: rest => snapshotWith shared v :: snapshotItems shared rest

def snapshotEntries (shared : Nat → Value) : List (Scalar × Value) → List (Scalar × Value)
  | [] => []
  | (k, v) :: rest => (k, snapshotWith shared v) :: snapshotEntries shared rest

end

/-- The snapshot of the container at an address. `opened` holds the maps around it; `depth` bounds
how many containers there can be around it. -/
def snapshotCell (σ : Store) : (depth : Nat) → (opened : List Nat) → Nat → Value
  | 0, _, _ => again
  | depth + 1, opened, address =>
    match σ.cell? address with
    | some (.list items) => snapshotWith (snapshotCell σ depth opened) (.list items)
    | some (.map entries) | some (.view entries) =>
      if opened.contains address then again
      else snapshotWith (snapshotCell σ depth (address :: opened)) (.map entries)
    | none => .null

/-- What a value shows now. No path without repetition is longer than the store. -/
def snapshot (σ : Store) (v : Value) : Value :=
  snapshotWith (snapshotCell σ (σ.cells.size + 1) []) v

end Switchyard.Value
