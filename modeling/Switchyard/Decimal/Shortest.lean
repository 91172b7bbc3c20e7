import Switchyard.Decimal.Binary

/-!
# The fewest digits that read back

Of all decimals that round to a given double, the one with the fewest digits, and among those the
nearest to it. For 1, 2, … 17 digits the two neighbours of the number on that decimal grid are
tried; the first grid that has one inside the rounding interval decides.
-/

namespace Switchyard.Decimal

/-- A positive decimal: the digits, read as one number, stand behind a point moved `point`
places to the right. -/
structure Digits where
  value : Nat
  count : Nat
  point : Int
  deriving DecidableEq, Repr

/-- A positive rational number as a quotient of natural numbers. -/
structure Ratio where
  num : Nat
  den : Nat

namespace Ratio

/-- `n · 2 ^ q`. -/
def scaled (n : Nat) (q : Int) : Ratio :=
  if 0 ≤ q then ⟨n * twoTo q.toNat, 1⟩ else ⟨n, twoTo (-q).toNat⟩

def shift (r : Ratio) (power : Int) : Ratio :=
  if 0 ≤ power then ⟨r.num * tenTo power.toNat, r.den⟩ else ⟨r.num, r.den * tenTo (-power).toNat⟩

/-- The largest natural number at or below the quotient. -/
def floor (r : Ratio) : Nat := r.num / r.den

end Ratio

/-- The number of decimal digits of a natural number; zero has none. -/
def digitCount (n : Nat) : Nat :=
  go (n + 1) n
where
  /-- Drops one digit after another, at most `fuel` of them. -/
  go : Nat → Nat → Nat
    | 0, _ => 0
    | fuel + 1, n => if n = 0 then 0 else go fuel (n / 10) + 1

/-- The power of ten next above a positive ratio: the `k` with `10 ^ (k - 1) ≤ r < 10 ^ k`. -/
def decimalPoint (r : Ratio) : Int :=
  let guess : Int := digitCount r.num - digitCount r.den
  if (r.shift (-guess)).floor = 0 then guess else guess + 1

/-- The decimal neighbour of `mantissa · 2 ^ exponent` with `count` digits, if one rounds to it. -/
def neighbour? (mantissa : Nat) (exponent : Int) (point : Int) (count : Nat) : Option Nat :=
  -- Everything is measured in quarters of the last binary place, on a grid of `count` digits.
  let grid : Int := count - point
  let number := (Ratio.scaled (4 * mantissa) (exponent - 2)).shift grid
  -- Below a power of two the next double is half as far away.
  let below := if mantissa = twoTo 52 ∧ -1074 < exponent then 1 else 2
  let low := (Ratio.scaled (4 * mantissa - below) (exponent - 2)).shift grid
  let high := (Ratio.scaled (4 * mantissa + 2) (exponent - 2)).shift grid
  -- The ends of the interval round to the number if its last place is even.
  let closed := mantissa % 2 = 0
  let inside (d : Nat) : Bool :=
    let lowSide := low.num < d * low.den ∨ (closed ∧ low.num = d * low.den)
    let highSide := d * high.den < high.num ∨ (closed ∧ d * high.den = high.num)
    lowSide ∧ highSide
  let down := number.floor
  let up := down + 1
  match inside down, inside up with
  | true, true =>
    -- Twice the number against the sum of its neighbours tells which is nearer.
    let twice := 2 * number.num
    let middle := (down + up) * number.den
    if twice < middle then some down
    else if middle < twice then some up
    else if down % 2 = 0 then some down else some up
  | true, false => some down
  | false, true => some up
  | false, false => none

/-- The fewest digits that read back as the positive number `mantissa · 2 ^ exponent`. -/
def shortest (mantissa : Nat) (exponent : Int) : Digits :=
  let point := decimalPoint (Ratio.scaled mantissa exponent)
  match (List.range 17).findSome? fun i =>
    (neighbour? mantissa exponent point (i + 1)).map (i + 1, ·) with
  | some (count, value) =>
    -- Rounding up may have carried into a new place.
    if value = tenTo count then ⟨1, 1, point + 1⟩ else ⟨value, count, point⟩
  | none => ⟨0, 1, 1⟩

end Switchyard.Decimal
