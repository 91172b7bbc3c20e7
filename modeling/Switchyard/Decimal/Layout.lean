import Switchyard.Decimal.Shortest

/-!
# The layout of a number

How a double is written: the fewest digits that read back, a point always present in positional
notation, and an exponent of at least two digits outside the positional range.
-/

namespace Switchyard.Decimal

/-- The choices that fix how digits and their point are laid out. -/
structure Layout where
  /-- The smallest and largest place of the point that is written positionally. -/
  leastPoint : Int
  mostPoint : Int
  /-- The fewest digits of an exponent. -/
  exponentDigits : Nat
  nan : String
  infinity : String

/-- Numbers from 0.0001 up to but not including 10^16 are written positionally. -/
def Layout.plain : Layout := ⟨-3, 16, 2, "nan", "inf"⟩

/-- The text with zeros in front up to the width. -/
def padZeros (width : Nat) (s : String) : String :=
  String.ofList (List.replicate (width - s.length) '0') ++ s

/-- The first `n` characters of a text. -/
def firstChars (n : Nat) (s : String) : String := String.ofList (s.toList.take n)

/-- What is left of a text after its first `n` characters. -/
def afterChars (n : Nat) (s : String) : String := String.ofList (s.toList.drop n)

def Digits.write (layout : Layout) (d : Digits) : String :=
  let digits := padZeros d.count (toString d.value)
  if layout.leastPoint ≤ d.point ∧ d.point ≤ layout.mostPoint then
    if d.point ≤ 0 then "0." ++ padZeros (d.count + (-d.point).toNat) digits
    else
      let whole := d.point.toNat
      -- All digits stand before the point, perhaps with zeros after them.
      if d.count ≤ whole then
        digits ++ String.ofList (List.replicate (whole - d.count) '0') ++ ".0"
      else firstChars whole digits ++ "." ++ afterChars whole digits
  else
    let power := d.point - 1
    let mark := if power < 0 then "e-" else "e+"
    let fraction := if d.count = 1 then "" else "." ++ afterChars 1 digits
    firstChars 1 digits ++ fraction ++ mark ++
      padZeros layout.exponentDigits (toString power.natAbs)

def Layout.write (layout : Layout) : Binary → String
  | .nan => layout.nan
  | .infinite negative => (if negative then "-" else "") ++ layout.infinity
  | .finite negative mantissa exponent =>
    (if negative then "-" else "") ++
      (if mantissa = 0 then "0.0" else (shortest mantissa exponent).write layout)

def text (x : Float) : String := Layout.plain.write (.ofFloat x)

end Switchyard.Decimal
