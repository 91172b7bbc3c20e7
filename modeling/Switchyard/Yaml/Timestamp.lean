import Switchyard.Decimal.Reader
import Switchyard.Text.Quoted

/-!
# Points in time

A point in time is written as a date alone, or as a date and a time of day with an optional fraction
of a second and an optional offset from universal time.
-/

namespace Switchyard.Yaml

/-- How far a clock is ahead of universal time. -/
structure Offset where
  isBehind : Bool
  hours : Nat
  minutes : Nat
  deriving Repr, DecidableEq

/-- A time of day. -/
structure TimeOfDay where
  hour : Nat
  minute : Nat
  second : Nat
  /-- The digits of the fraction of a second. -/
  fraction : List Char
  offset : Option Offset
  deriving Repr, DecidableEq

/-- A date, maybe with a time of day. -/
structure Timestamp where
  year : Nat
  month : Nat
  day : Nat
  time : Option TimeOfDay
  deriving Repr, DecidableEq

namespace Timestamp

/-- Reads at least `least` and at most `most` digits. -/
def digits (least most : Nat) (cs : List Char) : Option (Nat × List Char) :=
  let found := (cs.take most).takeWhile Decimal.isDigit
  if found.length < least then none else some (Decimal.digitsValue found, cs.drop found.length)

def sign (c : Char) : List Char → Option (List Char)
  | d :: rest => if c = d then some rest else none
  | [] => none

/-- Reads what separates a date from a time of day. -/
def separator : List Char → Option (List Char)
  | c :: rest =>
    if c = 'T' ∨ c = 't' then some rest
    else if c = ' ' ∨ c = '\t' then some (rest.dropWhile fun c => c = ' ' || c = '\t')
    else none
  | [] => none

def offsetText (cs : List Char) : Option (Option Offset) :=
  match cs with
  | [] => some none
  | cs =>
    match cs.dropWhile fun c => c = ' ' || c = '\t' with
    | ['Z'] => some (some ⟨false, 0, 0⟩)
    | c :: rest =>
      if c = '+' ∨ c = '-' then do
        let (hours, rest) ← digits 1 2 rest
        match rest with
        | [] => some (some ⟨c = '-', hours, 0⟩)
        | ':' :: rest =>
          let (minutes, rest) ← digits 2 2 rest
          if rest = [] then some (some ⟨c = '-', hours, minutes⟩) else none
        | _ => none
      else none
    | [] => none

def timeText (cs : List Char) : Option TimeOfDay := do
  let (hour, cs) ← digits 1 2 cs
  let (minute, cs) ← digits 2 2 (← sign ':' cs)
  let (second, cs) ← digits 2 2 (← sign ':' cs)
  let (fraction, cs) := match cs with
    | '.' :: rest => (rest.takeWhile Decimal.isDigit, rest.dropWhile Decimal.isDigit)
    | cs => ([], cs)
  pure ⟨hour, minute, second, fraction, ← offsetText cs⟩

/-- The point in time that a text stands for. -/
def read? (cs : List Char) : Option Timestamp := do
  let (year, cs) ← digits 4 4 cs
  let (month, cs) ← digits 1 2 (← sign '-' cs)
  let (day, cs) ← digits 1 2 (← sign '-' cs)
  match cs with
  | [] => some ⟨year, month, day, none⟩
  | cs => do pure ⟨year, month, day, some (← timeText (← separator cs))⟩

/-- Whether a text shows by itself that it is a point in time: a date alone has to
have all its digits. -/
def isPlain (cs : List Char) : Bool :=
  match read? cs with
  | some t => t.time.isSome || cs.length = 10
  | none => false

/-- Whether there is a 29th of February in a year. -/
def isLeap (year : Nat) : Bool := year % 4 = 0 && (year % 100 ≠ 0 || year % 400 = 0)

def monthLength (year month : Nat) : Nat :=
  if month = 2 then (if isLeap year then 29 else 28)
  else if [4, 6, 9, 11].contains month then 30 else 31

def isOffset (o : Offset) : Bool := 60 * o.hours + o.minutes < 24 * 60

def isTimeOfDay (t : TimeOfDay) : Bool :=
  t.hour < 24 && t.minute < 60 && t.second < 60 && (t.offset.map isOffset).getD true

/-- Whether there is such a point in time. -/
def isReal (t : Timestamp) : Bool :=
  1 ≤ t.year && 1 ≤ t.month && t.month ≤ 12 && 1 ≤ t.day && t.day ≤ monthLength t.year t.month &&
    (t.time.map isTimeOfDay).getD true

def padded (width n : Nat) : String :=
  let digits := toString n
  String.ofList (List.replicate (width - digits.length) '0') ++ digits

def dateText (t : Timestamp) : String :=
  padded 4 t.year ++ "-" ++ padded 2 t.month ++ "-" ++ padded 2 t.day

/-- The millionths of a second that digits after the point stand for. -/
def micros (fraction : List Char) : Nat :=
  let kept := fraction.take 6
  Decimal.digitsValue kept * Decimal.tenTo (6 - kept.length)

def offsetShown (o : Offset) : String :=
  let minutes := 60 * o.hours + o.minutes
  (if o.isBehind && minutes ≠ 0 then "-" else "+") ++ padded 2 (minutes / 60) ++ ":" ++
    padded 2 (minutes % 60)

def timeShown (t : TimeOfDay) : String :=
  let micros := micros t.fraction
  padded 2 t.hour ++ ":" ++ padded 2 t.minute ++ ":" ++ padded 2 t.second ++
    (if micros = 0 then "" else "." ++ padded 6 micros) ++ (t.offset.map offsetShown).getD ""

def shown (t : Timestamp) : String :=
  match t.time with
  | some time => t.dateText ++ " " ++ timeShown time
  | none => t.dateText

def typeName (t : Timestamp) : String := if t.time.isSome then "datetime" else "date"

end Timestamp

end Switchyard.Yaml
