import Switchyard.Decimal.Shortest

/-!
# From decimals and integers to doubles

A decimal is read as the nearest double. An integer has a nearest double unless it lies beyond the
largest finite one. The written form read here is the plain one: an optional sign, then basic digits
with at most one point and an optional exponent, or one of the words for infinity and for no number.
-/

namespace Switchyard.Decimal

/-- The double nearest to `mantissa · 10 ^ power`; beyond the largest finite one it is infinite. -/
def nearest (mantissa : Nat) (power : Int) : Float :=
  if mantissa = 0 then 0
  else
    -- The place of the leading digit settles the extremes without large powers of ten.
    let top := digitCount mantissa + power
    if top < -400 then 0
    else if 400 < top then 1.0 / 0.0
    else if 0 ≤ power then Float.ofScientific mantissa false power.toNat
    else Float.ofScientific mantissa true (-power).toNat

/-- Integers at or beyond this size round to no finite double. -/
def overflowBound : Nat := twoTo 1024 - twoTo 970

/-- The double nearest to an integer, if it is finite. -/
def ofInt? (n : Int) : Option Float :=
  if overflowBound ≤ n.natAbs then none
  else
    let size := Float.ofScientific n.natAbs false 0
    some (if n < 0 then -size else size)

def signed (negative : Bool) (x : Float) : Float := if negative then -x else x

/-- Whether the character is one of the ten basic digits. -/
def isDigit (c : Char) : Bool := '0' ≤ c && c ≤ '9'

def digitsValue (digits : List Char) : Nat :=
  digits.foldl (fun n c => 10 * n + (c.toNat - 48)) 0

/-- Splits off a sign; `true` stands for minus. -/
def splitSign : List Char → Bool × List Char
  | '-' :: rest => (true, rest)
  | '+' :: rest => (false, rest)
  | cs => (false, cs)

/-- The power of ten that an exponent stands for; nothing stands for zero. -/
def exponent? : List Char → Option Int
  | [] => some 0
  | e :: rest =>
    let (negative, digits) := splitSign rest
    if (e = 'e' ∨ e = 'E') ∧ digits ≠ [] ∧ digits.all isDigit then
      some (if negative then -(digitsValue digits : Int) else digitsValue digits)
    else none

/-- The double that an unsigned numeral stands for. -/
def numeral? (cs : List Char) : Option Float :=
  let whole := cs.takeWhile isDigit
  let (fraction, rest) := match cs.dropWhile isDigit with
    | '.' :: rest => (rest.takeWhile isDigit, rest.dropWhile isDigit)
    | rest => ([], rest)
  if whole = [] ∧ fraction = [] then none
  else (exponent? rest).map fun power =>
    nearest (digitsValue (whole ++ fraction)) (power - fraction.length)

/-- The double that a text stands for. -/
def read? (s : String) : Option Float :=
  let (negative, size) := splitSign s.toList
  let word := String.ofList (size.map Char.toLower)
  if word = "inf" ∨ word = "infinity" then some (signed negative (1.0 / 0.0))
  else if word = "nan" then some (0.0 / 0.0)
  else (numeral? size).map (signed negative)

end Switchyard.Decimal
