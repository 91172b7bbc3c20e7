import Switchyard.Decimal.Power

/-!
# Binary floating point numbers, taken apart

A finite double is `m · 2 ^ q` with a sign. The text of a number, its exact comparison with an
integer and its rounding to fixed places all start from these parts, so that everything after this
module is exact arithmetic on natural numbers.
-/

namespace Switchyard.Decimal

/-- A double, taken apart: the magnitude of a finite one is `mantissa · 2 ^ exponent`. -/
inductive Binary
  | nan
  | infinite (negative : Bool)
  | finite (negative : Bool) (mantissa : Nat) (exponent : Int)
  deriving DecidableEq, Repr

namespace Binary

/-- The parts that a pattern of 64 bits stands for. -/
def ofBits (bits : Nat) : Binary :=
  let negative : Bool := bits / twoTo 63 % 2 = 1
  let exponent : Nat := bits / twoTo 52 % twoTo 11
  let fraction := bits % twoTo 52
  if exponent = 2047 then
    if fraction = 0 then .infinite negative else .nan
  else if exponent = 0 then .finite negative fraction (-1074)
  else .finite negative (twoTo 52 + fraction) ((exponent : Int) - 1075)

def ofFloat (x : Float) : Binary := ofBits x.toBits.toNat

def isInt : Binary → Int → Bool
  | .finite negative mantissa exponent, n =>
    let sign : Int := if negative then -1 else 1
    if 0 ≤ exponent then n = sign * (mantissa * twoTo exponent.toNat)
    else n * twoTo (-exponent).toNat = sign * mantissa
  | _, _ => false

/-- The integer that the number is exactly, if there is one. -/
def toInt? : Binary → Option Int
  | .finite negative mantissa exponent =>
    let sign : Int := if negative then -1 else 1
    if 0 ≤ exponent then some (sign * (mantissa * twoTo exponent.toNat))
    else
      let unit := twoTo (-exponent).toNat
      if mantissa % unit = 0 then some (sign * (mantissa / unit)) else none
  | _ => none

end Binary

end Switchyard.Decimal
