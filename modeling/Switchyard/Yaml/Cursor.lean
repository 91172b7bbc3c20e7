import Switchyard.Fault

/-!
# A place in a YAML text

A cursor is the rest of a text together with how far it is: how many characters were passed,
and the line and column it is at. At the end of the text the cursor sees a null character,
which a text may not contain.
-/

namespace Switchyard.Yaml

/-- Why a text is no YAML document that can be read. -/
inductive Problem
  /-- The text breaks a rule of the format. -/
  | malformed (what : String)
  /-- A scalar is written in a way that its type has no room for; `className` says what
  kind of error that is. -/
  | unfit (className what : String)
  deriving Repr, Inhabited

def Problem.raised : Problem → Raised
  | .malformed what => .broken "YAMLError" what
  | .unfit className what => .broken className what

/-! ## Characters -/

/-- What the cursor sees at the end of the text. -/
def endMark : Char := '\x00'

def isBreak (c : Char) : Bool :=
  c = '\n' || c = '\r' || c = '\u0085' || c = '\u2028' || c = '\u2029'

def isLineEnd (c : Char) : Bool := c = endMark || isBreak c

/-- Whether the character separates words within a line. -/
def isGap (c : Char) : Bool := c = ' ' || c = '\t'

/-- Whether a word stops before the character. -/
def isWordEnd (c : Char) : Bool := isGap c || isLineEnd c

/-- Whether the character is a basic letter or digit, a hyphen or an underscore. -/
def isNameChar (c : Char) : Bool := c.isAlphanum || c = '-' || c = '_'

def isPrintable (c : Char) : Bool :=
  let n := c.toNat
  n = 9 || n = 10 || n = 13 || (32 ≤ n && n ≤ 126) || n = 133 || (160 ≤ n && n ≤ 55295) ||
    (57344 ≤ n && n ≤ 65533) || 65536 ≤ n

/-- The mark that a text may start with. -/
def byteOrderMark : Char := '\uFEFF'

/-! ## Cursors -/

/-- A place in a text. -/
structure Cursor where
  rest : List Char
  index : Nat := 0
  line : Nat := 0
  column : Nat := 0
  deriving Inhabited

namespace Cursor

/-- The character at the cursor. -/
def peek (c : Cursor) : Char := c.rest.headD endMark

def peekAt (c : Cursor) (n : Nat) : Char := (c.rest.drop n).headD endMark

/-- The cursor after one character. A carriage return and a line feed after it end one line
together; a byte order mark takes no column. -/
def next (c : Cursor) : Cursor :=
  match c.rest with
  | [] => c
  | x :: rest =>
    if isBreak x && !(x = '\r' && rest.headD endMark = '\n') then ⟨rest, c.index + 1, c.line + 1, 0⟩
    else ⟨rest, c.index + 1, c.line, if x = byteOrderMark then c.column else c.column + 1⟩

def skip (c : Cursor) : Nat → Cursor
  | 0 => c
  | n + 1 => c.next.skip n

/-- The characters from the cursor on for which a test holds. -/
def run (c : Cursor) (test : Char → Bool) : List Char := c.rest.takeWhile test

/-- The cursor after the characters for which a test holds. -/
def skipRun (c : Cursor) (test : Char → Bool) : Cursor := c.skip (c.run test).length

def skipSpaces (c : Cursor) : Cursor := c.skipRun (· = ' ')

/-- The line break at the cursor: as it counts in the text of a scalar, and the cursor after it. -/
def lineBreak? (c : Cursor) : Option (Char × Cursor) :=
  match c.rest with
  | '\r' :: '\n' :: _ => some ('\n', c.skip 2)
  | '\u2028' :: _ => some ('\u2028', c.next)
  | '\u2029' :: _ => some ('\u2029', c.next)
  | x :: _ => if isBreak x then some ('\n', c.next) else none
  | [] => none

/-- Whether the mark that separates documents, three times `sign`, is at the cursor. -/
def isAtMark (c : Cursor) (sign : Char) : Bool :=
  c.rest.take 3 == [sign, sign, sign] && isWordEnd (c.peekAt 3)

/-- Whether a mark that separates documents is at the cursor. -/
def isAtSeparator (c : Cursor) : Bool := c.isAtMark '-' || c.isAtMark '.'

/-- The cursor after a comment, if there is one. -/
def skipComment (c : Cursor) : Cursor := if c.peek = '#' then c.skipRun (!isLineEnd ·) else c

/-- The cursor on the next line, where nothing but spaces and a comment may be left on this one. -/
def skipLine (c : Cursor) : Except Problem Cursor :=
  let c := c.skipSpaces.skipComment
  match c.lineBreak? with
  | some (_, c) => .ok c
  | none =>
    if c.peek = endMark then .ok c else .error (.malformed "expected a comment or a line break")

end Cursor

end Switchyard.Yaml
