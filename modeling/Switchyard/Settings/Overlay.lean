import Switchyard.Value.Basic

/-!
# Overlays

An overlay changes a map in place of editing it. Where both have a map under a key the two are
merged the same way; anywhere else the value of the overlay takes the place of the other one. Keys
keep their places, and new keys come last.
-/

namespace Switchyard

mutual

def Value.overlaid (base : Value) : Value → Value
  | .map entries => match base with
    | .map under => .map (Entries.overlaid under entries)
    | _ => .map entries
  | v => v

/-- A map under the entries of an overlay, one after another. -/
def Entries.overlaid (base : Entries) : List (Scalar × Value) → Entries
  | [] => base
  | (k, v) :: rest =>
    let value := match base.get? k with
      | some under => under.overlaid v
      | none => v
    Entries.overlaid (base.put k value) rest

end

end Switchyard
