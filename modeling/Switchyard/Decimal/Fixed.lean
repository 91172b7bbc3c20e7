import Switchyard.Decimal.Layout

/-!
# Fixed places

A number with a fixed count of decimal places, rounded from its exact binary value; a half goes
to the even neighbour.
-/

namespace Switchyard.Decimal

/-- The quotient rounded to the nearest natural number, a half to the even one. -/
def roundDiv (num den : Nat) : Nat :=
  let down := num / den
  let twice := 2 * (num % den)
  if twice < den then down
  else if den < twice then down + 1
  else if down % 2 = 0 then down else down + 1

/-- The text of a double with the given count of decimal places. -/
def fixed (places : Nat) : Binary → String
  | .nan => "nan"
  | .infinite negative => if negative then "-inf" else "inf"
  | .finite negative mantissa exponent =>
    let scaled := (Ratio.scaled mantissa exponent).shift places
    let digits := padZeros (places + 1) (toString (roundDiv scaled.num scaled.den))
    let whole := digits.length - places
    (if negative then "-" else "") ++ firstChars whole digits ++
      (if places = 0 then "" else "." ++ afterChars whole digits)

end Switchyard.Decimal
