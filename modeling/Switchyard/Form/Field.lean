import Switchyard.Decimal.Reader
import Switchyard.Form.Checked
import Switchyard.Text.Blank

/-!
# The forms of single fields

The forms are lenient where a loss is impossible: a text may come as its bytes, a number as the text
of one, a truth value as zero, one or one of the usual words.
-/

namespace Switchyard.Form

/-- A text, or the bytes of one. -/
def text (v : Value) : Checked String :=
  match v with
  | .atom (.text s) => .ok s
  | .atom (.bytes b) => match String.fromUTF8? ⟨b.toArray⟩ with
    | some s => .ok s
    | none => .issue "string_unicode"
  | _ => .issue "string_type"

def nonEmptyText (v : Value) : Checked String :=
  match text v with
  | .ok s => if s = "" then .issue "string_too_short" else .ok s
  | .error issues => .error issues

/-- The text that a number or a truth value may come as. -/
def phrase? : Value → Option String
  | .atom (.text s) => some s
  | .atom (.bytes b) => String.fromUTF8? ⟨b.toArray⟩
  | _ => none

/-- Without its underscores, if there are any and each stands alone inside. -/
def withoutUnderscores (s : List Char) : Option (List Char) :=
  let doubled := (s.zip (s.drop 1)).any fun (a, b) => a = '_' && b = '_'
  if s.head? = some '_' ∨ s.getLast? = some '_' ∨ doubled ∨ ¬ s.contains '_' then none
  else some (s.filter (· ≠ '_'))

/-- Without zeros in front. Digits have to come first, or a minus sign, after which zeros in
front are not allowed. -/
def withoutLeadingZeros (s : List Char) : Option (List Char) :=
  match s with
  | '0' :: rest =>
    match rest.dropWhile fun c => c = '0' || c = '_' with
    | [] => some [(s.getLast?).getD '0']
    | '.' :: tail =>
      let skipped := rest.length - (tail.length + 1)
      some ((s[skipped]?).getD '0' :: '.' :: tail)
    | c :: tail => if Decimal.isDigit c then some (c :: tail) else none
  | c :: _ => if c = '-' ∨ Decimal.isDigit c then some s else none
  | [] => none

def withoutZeroFraction (s : List Char) : List Char :=
  match s.dropWhile (· ≠ '.') with
  | _ :: fraction => if fraction.all (· = '0') then s.takeWhile (· ≠ '.') else s
  | [] => s

/-- The integer that digits with an optional minus sign stand for; only zero itself
starts with a zero. -/
def strictInteger (s : List Char) : Option Int :=
  let (negative, digits) := match s with
    | '-' :: rest => (true, rest)
    | _ => (false, s)
  if digits = [] ∨ ¬ digits.all Decimal.isDigit ∨
    (digits.head? = some '0' ∧ digits.length ≠ 1) then none
  else
    let n : Int := Decimal.digitsValue digits
    some (if negative then -n else n)

/-- The integer that a text stands for. White space around it, a plus sign, zeros in front,
underscores between digits and a fraction of zeros are allowed. -/
def integerText (s : String) : Option Int := do
  let trimmed := (Text.trim s).toList
  let unsigned ← match trimmed with
    | '+' :: '+' :: _ | '+' :: '-' :: _ => none
    | '+' :: rest => some rest
    | cs => some cs
  let digits := withoutZeroFraction (← withoutLeadingZeros unsigned)
  strictInteger ((withoutUnderscores digits).getD digits)

def integer (v : Value) : Checked Int :=
  match v with
  | .atom (.int n) => .ok n
  | .atom (.bool b) => .ok (if b then 1 else 0)
  | .atom (.float x) =>
    match Decimal.Binary.ofFloat x with
    | .finite negative mantissa exponent =>
      match (Decimal.Binary.finite negative mantissa exponent).toInt? with
      | some n =>
        if -(Decimal.twoTo 63) < n ∧ n < Decimal.twoTo 63 then .ok n else .issue "int_parsing_size"
      | none => .issue "int_from_float"
    | _ => .issue "finite_number"
  | v => match phrase? v with
    | some s => match integerText s with
      | some n => .ok n
      | none => .issue "int_parsing"
    | none => match v with
      | .atom (.bytes _) => .issue "int_parsing"
      | _ => .issue "int_type"

def integerFrom (least : Int) (v : Value) : Checked Int :=
  match integer v with
  | .ok n => if n < least then .issue "greater_than_equal" else .ok n
  | .error issues => .error issues

/-- The double that a text stands for; white space around it is allowed, or else
single underscores. -/
def numberText (s : String) : Option Float :=
  match Decimal.read? (Text.trim s) with
  | some x => some x
  | none => (withoutUnderscores s.toList).bind fun cs => Decimal.read? (String.ofList cs)

def number (v : Value) : Checked Float :=
  match v with
  | .atom (.float x) => .ok x
  | .atom (.bool b) => .ok (if b then 1 else 0)
  | .atom (.int n) => match Decimal.ofInt? n with
    | some x => .ok x
    | none => .issue "float_type"
  | v => match phrase? v with
    | some s => match numberText s with
      | some x => .ok x
      | none => .issue "float_parsing"
    | none => match v with
      | .atom (.bytes _) => .issue "float_parsing"
      | _ => .issue "float_type"

def positive (v : Value) : Checked Float :=
  match number v with
  | .ok x => if 0 < x then .ok x else .issue "greater_than"
  | .error issues => .error issues

def truthWord (s : String) : Option Bool :=
  let word := String.ofList (s.toList.map Char.toLower)
  if ["1", "t", "true", "y", "yes", "on"].contains word then some true
  else if ["0", "f", "false", "n", "no", "off"].contains word then some false
  else none

def truthNumber (n : Int) : Checked Bool :=
  if n = 0 then .ok false else if n = 1 then .ok true else .issue "bool_parsing"

def truth (v : Value) : Checked Bool :=
  match v with
  | .atom (.bool b) => .ok b
  | .atom (.int n) => truthNumber n
  | .atom (.float x) => match (Decimal.Binary.ofFloat x).toInt? with
    | some n => truthNumber n
    | none => .issue "bool_type"
  | v => match phrase? v with
    | some s => match truthWord s with
      | some b => .ok b
      | none => .issue "bool_parsing"
    | none => match v with
      | .atom (.bytes _) => .issue "bool_parsing"
      | _ => .issue "bool_type"

def choice {α : Type} (words : List (String × α)) (v : Value) : Checked α :=
  match text v with
  | .ok s => match words.find? (·.1 == s) with
    | some (_, x) => .ok x
    | none => .issue "enum"
  | .error _ => .issue "enum"

def optional {α : Type} (check : Value → Checked α) (v : Value) : Checked (Option α) :=
  match v with
  | .atom .null => .ok none
  | v => (check v).map some

def sequence {α : Type} (rule : String) (check : Value → Checked α) (v : Value) :
    Checked (List α) :=
  match v with
  | .list items | .tuple items => Checked.each check 0 items
  | _ => .issue rule

def list {α : Type} (check : Value → Checked α) (v : Value) : Checked (List α) :=
  sequence "list_type" check v

def textSet (v : Value) : Checked (List String) := sequence "frozen_set_type" text v

def key (k : Scalar) : Checked String :=
  match text (.atom k) with
  | .ok s => .ok s
  | .error issues =>
    .error (issues.map fun i => { i with location := [.ofKey k, .field "[key]"] })

def textKeys : List (Scalar × Value) → Checked (List (Scalar × Value))
  | [] => .ok []
  | (k, v) :: rest =>
    Checked.join ((key k).map fun s entries => (.text s, v) :: entries) (textKeys rest)

/-- A map with text keys and data of any form. -/
def dictionary (v : Value) : Checked Entries :=
  match v with
  | .map entries => (textKeys entries).map Entries.ofPairs
  | _ => .issue "dict_type"

/-- The fields of a structure. -/
def structure? (v : Value) : Checked Entries :=
  match v with
  | .map entries => .ok entries
  | _ => .issue "model_type"

def required {α : Type} (fields : Entries) (name : String) (check : Value → Checked α) :
    Checked α :=
  Checked.within (.field name) <| match fields.field? name with
    | some v => check v
    | none => .issue "missing"

def withDefault {α : Type} (fields : Entries) (name : String) (default : α)
    (check : Value → Checked α) : Checked α :=
  match fields.field? name with
  | some v => Checked.within (.field name) (check v)
  | none => .ok default

end Switchyard.Form
