import Switchyard.Yaml.Timestamp

/-!
# What plain scalars are

A plain scalar without a tag is a truth value, a number, nothing, or a point in time if it looks
like one, and a text otherwise. Two signs have a meaning of their own as keys: one merges other
mappings into a mapping, the other stands for its plain value.
-/

namespace Switchyard.Yaml

/-- What every tag of the core schema starts with. -/
def coreTag (name : String) : String := "tag:yaml.org,2002:" ++ name

/-- Whether the character is a digit or the underscore that groups digits. -/
def isGrouped (c : Char) : Bool := Decimal.isDigit c || c = '_'

/-- Whether the text is a digit with further digits and underscores. -/
def isDigits : List Char → Bool
  | c :: rest => Decimal.isDigit c && rest.all isGrouped
  | [] => false

/-- Whether the text is a number below sixty. -/
def isSixtieth : List Char → Bool
  | [c] => Decimal.isDigit c
  | [c, d] => '0' ≤ c && c ≤ '5' && Decimal.isDigit d
  | _ => false

/-- The parts of a text between colons. -/
def colonParts (cs : List Char) : List (List Char) :=
  match cs with
  | [] => [[]]
  | c :: rest =>
    if c = ':' then [] :: colonParts rest
    else match colonParts rest with
      | part :: parts => (c :: part) :: parts
      | [] => [[c]]

def unsigned : List Char → List Char
  | c :: rest => if c = '+' ∨ c = '-' then rest else c :: rest
  | [] => []

/-- Whether the text is an integer without a sign: in base two, eight, ten, sixteen or sixty. -/
def isUnsignedInteger (cs : List Char) : Bool :=
  match cs with
  | '0' :: 'b' :: digits => !digits.isEmpty && digits.all fun c => c = '0' || c = '1' || c = '_'
  | '0' :: 'x' :: digits =>
    !digits.isEmpty && digits.all fun c =>
      isGrouped c || ('a' ≤ c && c ≤ 'f') || ('A' ≤ c && c ≤ 'F')
  | '0' :: digits => digits.all fun c => ('0' ≤ c && c ≤ '7') || c = '_'
  | cs => match colonParts cs with
    | first :: sixtieths => isDigits first && first.headD '0' ≠ '0' && sixtieths.all isSixtieth
    | [] => false

def isInteger (cs : List Char) : Bool := isUnsignedInteger (unsigned cs)

/-- Whether the text is an exponent, which always has a sign, or nothing. -/
def isExponent (cs : List Char) : Bool :=
  match cs with
  | [] => true
  | e :: s :: digits =>
    (e = 'e' || e = 'E') && (s = '+' || s = '-') && !digits.isEmpty && digits.all Decimal.isDigit
  | _ => false

/-- Whether the text is digits and underscores with an exponent. -/
def isFraction (cs : List Char) : Bool := isExponent (cs.dropWhile isGrouped)

/-- Whether the text is a number with a point whose whole part is in base sixty. -/
def isSixtyFloat (cs : List Char) : Bool :=
  match colonParts (cs.takeWhile (· ≠ '.')), cs.dropWhile (· ≠ '.') with
  | first :: second :: sixtieths, _ :: fraction =>
    isDigits first && (second :: sixtieths).all isSixtieth && fraction.all isGrouped
  | _, _ => false

def isFloat (cs : List Char) : Bool :=
  let size := unsigned cs
  let whole := size.takeWhile isGrouped
  let pointed := match size.dropWhile isGrouped with
    | '.' :: fraction => isDigits whole && isFraction fraction
    | _ => false
  let small := match cs with
    | '.' :: fraction => isDigits (fraction.takeWhile isGrouped) && isFraction fraction
    | _ => false
  pointed || small || isSixtyFloat size ||
    [".inf", ".Inf", ".INF"].contains (String.ofList size) ||
      [".nan", ".NaN", ".NAN"].contains (String.ofList cs)

def truthWords : List (String × Bool) :=
  [("yes", true), ("no", false), ("true", true), ("false", false), ("on", true), ("off", false)]

/-- The three ways in which a word of the format may be written. -/
def spellings (word : String) : List String :=
  [word, String.ofList (match word.toList with
    | c :: rest => c.toUpper :: rest
    | [] => []), String.ofList (word.toList.map Char.toUpper)]

/-- Whether a text is one of the spellings of some words. -/
def isSpelled (words : List String) (s : String) : Bool :=
  words.any fun w => (spellings w).contains s

/-- The tag of a plain text. A line break at its end does not count. -/
def plainTag (text : String) : String :=
  let cs := match text.toList.reverse with
    | '\n' :: rest => if rest.isEmpty then ['\n'] else rest.reverse
    | _ => text.toList
  let s := String.ofList cs
  if isSpelled (truthWords.map (·.1)) s then coreTag "bool"
  else if isFloat cs then coreTag "float"
  else if isInteger cs then coreTag "int"
  else if s = "<<" then coreTag "merge"
  else if s = "" ∨ s = "~" ∨ isSpelled ["null"] s then coreTag "null"
  else if Timestamp.isPlain cs then coreTag "timestamp"
  else if s = "=" then coreTag "value"
  else if s = "!" ∨ s = "&" ∨ s = "*" then coreTag "yaml"
  else coreTag "str"

end Switchyard.Yaml
