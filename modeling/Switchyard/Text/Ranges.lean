/-!
# Sets of code points

A large property of characters is kept as the increasing list of the code points at which membership
changes: a code point belongs to the set when an odd number of them lie at or below it.
-/

namespace Switchyard.Text

/-- A set of code points, given by the places where membership turns over. -/
structure Ranges where
  turns : List Nat

namespace Ranges

/-- Membership by parity: passing one turn flips the answer of the turns after it. -/
def covers : List Nat → Nat → Bool
  | [], _ => false
  | turn :: rest, n => if n < turn then false else !covers rest n

def has (ranges : Ranges) (c : Char) : Bool := covers ranges.turns c.toNat

end Ranges

end Switchyard.Text
