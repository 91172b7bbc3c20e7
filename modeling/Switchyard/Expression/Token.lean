import Switchyard.Decimal.Layout
import Switchyard.Decimal.Reader
import Switchyard.Expression.Tree
import Switchyard.Fault
import Switchyard.Text.Blank
import Switchyard.Text.Digit
import Switchyard.Text.Letter
import Switchyard.Text.Quoted

/-!
# Tokens of expressions

Source is cut into tokens from left to right. Blanks separate tokens and are dropped. The first
character of a token tells which kind it is:

- a quote starts a text, which ends at the next quote of the same form;
- a digit sign starts a number, or, right after a dot, the place of an item;
- an underscore or a letter starts a name;
- a dot, a plus and the two parentheses are tokens of their own.

Numbers are made of decimal digits and names of basic Latin letters, digits, underscores and
hyphens. A digit sign or a letter outside these classes starts a token that cannot be read.
-/

namespace Switchyard.Expression

/-- A token without its place. -/
inductive Lexeme
  | text (s : String)
  | integer (n : Nat)
  | decimal (x : Float)
  | index (n : Nat)
  | name (s : String)
  | dot
  | plus
  | opening
  | closing
  deriving Inhabited

/-- A lexeme with the characters it was read from: from `start` up to but not including `stop`. -/
structure Token where
  lexeme : Lexeme
  start : Nat
  stop : Nat
  deriving Inhabited

def Lexeme.displayed : Lexeme → String
  | .text s | .name s => Text.quoted s
  | .integer n | .index n => toString n
  | .decimal x => Decimal.text x
  | .dot => Text.quoted "."
  | .plus => Text.quoted "+"
  | .opening => Text.quoted "("
  | .closing => Text.quoted ")"

/-- What can be wrong with source. -/
inductive SourceFault
  | notText
  | empty
  | unexpectedCharacter (c : Char)
  | unknownEscape (c : Char)
  | unterminatedText
  | unexpectedToken (lexeme : Lexeme)
  | unexpectedEnd
  | fieldExpected
  | closingExpected
  deriving Inhabited

def SourceFault.message : SourceFault → String
  | .notText => "Expression source must be a string"
  | .empty => "Empty expression"
  | .unexpectedCharacter c => "Unexpected character " ++ Text.quoted (String.singleton c)
  | .unknownEscape c => "Unknown escape sequence \\" ++ String.singleton c
  | .unterminatedText => "Unterminated string literal"
  | .unexpectedToken lexeme => "Unexpected token " ++ lexeme.displayed
  | .unexpectedEnd => "Unexpected end of expression"
  | .fieldExpected => "Expected field name after '.'"
  | .closingExpected => "Expected RPAREN"

/-- Why source could not be read. -/
inductive ReadError
  /-- The source breaks the grammar at a position. -/
  | malformed (fault : SourceFault) (position : Nat)
  /-- A character starts a token of a class that it cannot be part of. -/
  | unreadable (c : Char) (position : Nat)
  deriving Inhabited

/-- The error that comes up when nothing of a token is matched: of a number the reader asks first
for what was matched, of a name for where that ends. -/
def strayError (c : Char) : Raised :=
  let asked := if Text.isDigitSign c then "group" else "end"
  .broken "AttributeError" ("'NoneType' object has no attribute '" ++ asked ++ "'")

/-- How a reading error of some source is raised. -/
def ReadError.raised (source : String) : ReadError → Raised
  | .malformed fault position => .fault (.malformed fault.message (.text source) (.int position))
  | .unreadable c _ => strayError c

def escaped? : Char → Option Char
  | 'n' => some '\n'
  | 't' => some '\t'
  | 'r' => some '\r'
  | '\\' => some '\\'
  | '\'' => some '\''
  | '"' => some '"'
  | '0' => some (Char.ofNat 0)
  | _ => none

/-- Reads the characters of a text up to its closing quote. The result tells how many characters
were read, the closing quote included. `position` is the place of the first of them and `start` that
of the opening quote. -/
def readText (quote : Char) (start : Nat) :
    (position : Nat) → List Char → Except ReadError (List Char × Nat)
  | _, [] => .error (.malformed .unterminatedText start)
  | position, '\\' :: rest =>
    match rest with
    | [] => .error (.malformed .unterminatedText start)
    | e :: rest =>
      match escaped? e with
      | none => .error (.malformed (.unknownEscape e) position)
      | some c => do
        let (cs, n) ← readText quote start (position + 2) rest
        pure (c :: cs, n + 2)
  | position, c :: rest =>
    if c = quote then .ok ([], 1)
    else do
      let (cs, n) ← readText quote start (position + 1) rest
      pure (c :: cs, n + 1)

/-- The parts of a number: the digits before and after the point, and the exponent with its sign. -/
structure Numeral where
  whole : List Char
  fraction : Option (List Char)
  exponent : Option (Bool × List Char)
  /-- How many characters the numeral takes. -/
  length : Nat

def leadingDigits (cs : List Char) : List Char := cs.takeWhile Text.isDecimalDigit

/-- The fraction at the front: a point and at least one digit. -/
def leadingFraction : List Char → Option (List Char)
  | '.' :: rest => if leadingDigits rest = [] then none else some (leadingDigits rest)
  | _ => none

/-- The exponent at the front: the letter, perhaps a sign, and at least one digit. The last part
tells how many characters it takes. -/
def leadingExponent : List Char → Option (Bool × List Char × Nat)
  | 'e' :: rest | 'E' :: rest =>
    let (negative, signs, digits) := match rest with
      | '-' :: digits => (true, 1, leadingDigits digits)
      | '+' :: digits => (false, 1, leadingDigits digits)
      | digits => (false, 0, leadingDigits digits)
    if digits = [] then none else some (negative, digits, 1 + signs + digits.length)
  | _ => none

/-- The longest number at the front. -/
def leadingNumeral (cs : List Char) : Numeral :=
  let whole := leadingDigits cs
  let fraction := leadingFraction (cs.drop whole.length)
  let soFar := whole.length + (match fraction with
    | some digits => digits.length + 1
    | none => 0)
  match leadingExponent (cs.drop soFar) with
  | some (negative, digits, n) => ⟨whole, fraction, some (negative, digits), soFar + n⟩
  | none => ⟨whole, fraction, none, soFar⟩

/-- The number that a numeral stands for: without fraction and exponent an integer, else
the nearest double. -/
def Numeral.lexeme (n : Numeral) : Lexeme :=
  match n.fraction, n.exponent with
  | none, none => .integer (Text.decimalValue n.whole)
  | fraction, exponent =>
    let places := fraction.getD []
    let power : Int := match exponent with
      | some (true, digits) => -(Text.decimalValue digits : Int)
      | some (false, digits) => Text.decimalValue digits
      | none => 0
    .decimal (Decimal.nearest (Text.decimalValue (n.whole ++ places)) (power - places.length))

/-- Whether a name can start with the character. -/
def startsName (c : Char) : Bool := c = '_' || Text.isBasicLetter c

/-- Whether a name can go on with the character. -/
def continuesName (c : Char) : Bool := startsName c || Text.isBasicDigit c || c = '-'

/-- Reads the token that starts with `c`. The result tells how many characters of
`rest` belong to it. -/
def readLexeme (afterDot : Bool) (position : Nat) (c : Char) (rest : List Char) :
    Except ReadError (Lexeme × Nat) :=
  if c = '"' ∨ c = '\'' then do
    let (cs, n) ← readText c position (position + 1) rest
    pure (.text (String.ofList cs), n)
  else if Text.isDigitSign c then
    if ¬ Text.isDecimalDigit c then .error (.unreadable c position)
    else if afterDot then
      let digits := leadingDigits (c :: rest)
      .ok (.index (Text.decimalValue digits), digits.length - 1)
    else
      let numeral := leadingNumeral (c :: rest)
      .ok (numeral.lexeme, numeral.length - 1)
  else if c = '_' ∨ Text.isLetter c then
    if ¬ startsName c then .error (.unreadable c position)
    else
      let tail := rest.takeWhile continuesName
      .ok (.name (String.ofList (c :: tail)), tail.length)
  else if c = '.' then .ok (.dot, 0)
  else if c = '+' then .ok (.plus, 0)
  else if c = '(' then .ok (.opening, 0)
  else if c = ')' then .ok (.closing, 0)
  else .error (.malformed (.unexpectedCharacter c) position)

/-- Whether a digit after this lexeme is the place of an item. -/
def Lexeme.isDot : Lexeme → Bool
  | .dot => true
  | _ => false

/-- The tokens of some source from a position on. -/
def tokensFrom (afterDot : Bool) (position : Nat) : List Char → Except ReadError (List Token)
  | [] => .ok []
  | c :: rest =>
    if Text.isBlank c then tokensFrom afterDot (position + 1) rest
    else
      match readLexeme afterDot position c rest with
      | .error e => .error e
      | .ok (lexeme, n) => do
        let tokens ← tokensFrom lexeme.isDot (position + 1 + n) (rest.drop n)
        pure (⟨lexeme, position, position + 1 + n⟩ :: tokens)
termination_by cs => cs.length
decreasing_by all_goals simp [List.length_drop]; try omega

def tokens (source : String) : Except ReadError (List Token) := tokensFrom false 0 source.toList

end Switchyard.Expression
