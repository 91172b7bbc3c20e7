import Switchyard.Yaml.Cursor

/-!
# The texts of scalars

A scalar is written plainly, between quotes, or as a block of lines. Where a plain or quoted scalar
goes on over several lines, a single line break counts as a space and each further one as itself; a
folded block does the same for lines that are not indented further.
-/

namespace Switchyard.Yaml

/-- The text of a line break that folds: `further` holds the line breaks after it. -/
def folded (lineBreak : Char) (further : List Char) : List Char :=
  if lineBreak ≠ '\n' then lineBreak :: further
  else if further.isEmpty then [' ']
  else further

/-! ## Plain scalars -/

/-- Whether a colon before the character separates a key from its value. -/
def endsKey (inFlow : Bool) (c : Char) : Bool :=
  isWordEnd c || (inFlow && [',', '[', ']', '\x7b', '\x7d'].contains c)

/-- Whether a plain scalar cannot go on with the character, within brackets. -/
def endsFlowText (c : Char) : Bool := [',', '?', '[', ']', '\x7b', '\x7d'].contains c

/-- The part of a plain scalar up to the next gap. -/
def plainWord (inFlow : Bool) : List Char → List Char
  | [] => []
  | c :: rest =>
    if isWordEnd c || (c = ':' && endsKey inFlow (rest.headD endMark)) ||
      (inFlow && endsFlowText c) then []
    else c :: plainWord inFlow rest

/-- The line breaks and spaces between two lines of a plain scalar: the line breaks that count,
unless a mark that separates documents is among them, and the cursor after them. -/
def plainBreaks : (fuel : Nat) → Cursor → Option (List Char) × Cursor
  | 0, c => (some [], c)
  | fuel + 1, c =>
    if c.peek = ' ' then plainBreaks fuel c.next
    else match c.lineBreak? with
      | none => (some [], c)
      | some (b, c) =>
        if c.isAtSeparator then (none, c)
        else
          let (further, c) := plainBreaks fuel c
          (further.map (b :: ·), c)

/-- What stands between two words of a plain scalar. -/
structure PlainGap where
  /-- What the gap counts as if the scalar goes on; nothing if it cannot. -/
  text : Option (List Char)
  /-- Whether the gap goes on to another line. -/
  isCrossing : Bool
  after : Cursor

def plainGap (c : Cursor) : PlainGap :=
  let spaces := c.run (· = ' ')
  let c := c.skip spaces.length
  match c.lineBreak? with
  | none => ⟨if spaces.isEmpty then none else some spaces, false, c⟩
  | some (b, c) =>
    -- A document separator ends the scalar before it.
    if c.isAtSeparator then ⟨none, true, c⟩
    else
      let (further, c) := plainBreaks c.rest.length c
      ⟨further.map (folded b), true, c⟩

/-- The rest of a plain scalar after a gap that counts as `gap`: its text, whether the last gap went
on to another line, and the cursor after it. Every line has to be indented by `indent` columns. -/
def plainFrom (indent : Int) (inFlow : Bool) :
    (fuel : Nat) → (gap : List Char) → (isCrossing : Bool) → Cursor → List Char × Bool × Cursor
  | 0, _, isCrossing, c => ([], isCrossing, c)
  | fuel + 1, gap, isCrossing, c =>
    let word := if c.peek = '#' then [] else plainWord inFlow c.rest
    if word.isEmpty then ([], isCrossing, c)
    else
      let next := plainGap (c.skip word.length)
      let c := next.after
      match next.text with
      | none => (gap ++ word, next.isCrossing, c)
      | some text =>
        -- A comment ends the scalar, and so does a line that is not indented enough.
        if c.peek = '#' || (!inFlow && decide (c.column < indent)) then
          (gap ++ word, next.isCrossing, c)
        else
          let (rest, isCrossing, c) := plainFrom indent inFlow fuel text next.isCrossing c
          (gap ++ word ++ rest, isCrossing, c)

/-- The plain scalar at the cursor. -/
def plain (indent : Int) (inFlow : Bool) (c : Cursor) : List Char × Bool × Cursor :=
  plainFrom indent inFlow c.rest.length [] false c

/-! ## Quoted scalars -/

def hexDigit? (c : Char) : Option Nat :=
  if c.isDigit then some (c.toNat - 48)
  else if 'a' ≤ c ∧ c ≤ 'f' then some (c.toNat - 87)
  else if 'A' ≤ c ∧ c ≤ 'F' then some (c.toNat - 55)
  else none

/-- The number that the next hexadecimal digits stand for. -/
def hexNumber? (digits : List Char) (count : Nat) : Option Nat :=
  if digits.length < count then none
  else (digits.take count).foldlM (fun n c => (hexDigit? c).map (16 * n + ·)) 0

def simpleEscapes : List (Char × Char) :=
  [('0', '\x00'), ('a', '\x07'), ('b', '\x08'), ('t', '\t'), ('\t', '\t'), ('n', '\n'),
    ('v', '\x0b'), ('f', '\x0c'), ('r', '\r'), ('e', '\x1b'), (' ', ' '), ('"', '"'), ('\\', '\\'),
      ('/', '/'), ('N', '\u0085'), ('_', '\u00a0'),
    ('L', '\u2028'), ('P', '\u2029')]

/-- The escapes by number, with how many hexadecimal digits they take. -/
def numericEscapes : List (Char × Nat) := [('x', 2), ('u', 4), ('U', 8)]

/-- The line breaks and gaps between two lines of a quoted scalar. -/
def quotedBreaks : (fuel : Nat) → Cursor → Except Problem (List Char × Cursor)
  | 0, c => .ok ([], c)
  | fuel + 1, c =>
    if c.isAtSeparator then .error (.malformed "found a document separator in a quoted scalar")
    else
      let c := c.skipRun isGap
      match c.lineBreak? with
      | none => .ok ([], c)
      | some (b, c) => do
        let (further, c) ← quotedBreaks fuel c
        pure (b :: further, c)

/-- The text of an escape, of which the cursor is after the backslash. -/
def escaped (c : Cursor) : Except Problem (List Char × Cursor) :=
  match simpleEscapes.lookup c.peek, numericEscapes.lookup c.peek with
  | some x, _ => .ok ([x], c.next)
  | none, some count =>
    match hexNumber? (c.rest.drop 1) count with
    | none => .error (.malformed "expected hexadecimal digits")
    | some n =>
      if n < 0x110000 then .ok ([Char.ofNat n], c.skip (count + 1))
      else .error (.unfit "ValueError" "no character has this number")
  -- An escaped line break joins two lines.
  | none, none => match c.lineBreak? with
    | some (_, c) => quotedBreaks (c.rest.length + 1) c
    | none => .error (.malformed "found an unknown escape")

/-- The text of a gap in a quoted scalar. -/
def quotedGap (c : Cursor) : Except Problem (List Char × Cursor) :=
  let blanks := c.run isGap
  let c := c.skip blanks.length
  match c.lineBreak? with
  | some (b, c) => do
    let (further, c) ← quotedBreaks (c.rest.length + 1) c
    pure (folded b further, c)
  | none => .ok (blanks, c)

/-- The rest of a quoted scalar up to its closing quote. Only between double quotes are there
escapes; between single quotes a quote is written twice. -/
def quotedFrom (quote : Char) : (fuel : Nat) → Cursor → Except Problem (List Char × Cursor)
  | 0, _ => .error (.malformed "found the end of the text in a quoted scalar")
  | fuel + 1, c =>
    let x := c.peek
    if x = endMark then .error (.malformed "found the end of the text in a quoted scalar")
    else if x = quote then
      -- A quote that is written twice stands for itself.
      if quote = '\'' && c.peekAt 1 = '\'' then do
        let (rest, c) ← quotedFrom quote fuel (c.skip 2)
        pure ('\'' :: rest, c)
      else .ok ([], c.next)
    else do
      let (text, c) ←
        if quote = '"' && x = '\\' then escaped c.next
        else if isWordEnd x then quotedGap c
        else pure ([x], c.next)
      let (rest, c) ← quotedFrom quote fuel c
      pure (text ++ rest, c)

/-- The quoted scalar at the cursor. -/
def quoted (c : Cursor) : Except Problem (List Char × Cursor) :=
  quotedFrom c.peek (c.rest.length + 1) c.next

/-! ## Blocks of lines -/

/-- What becomes of the line breaks at the end of a block. -/
inductive Chomping
  | strip
  | clip
  | keep
  deriving DecidableEq, Repr

/-- What stands after the indicator of a block. -/
structure BlockHeader where
  chomping : Chomping
  /-- How much further than its parent the block is indented, if it says so. -/
  increment : Option Nat

def chompingAt (c : Cursor) : Option Chomping :=
  if c.peek = '+' then some .keep else if c.peek = '-' then some .strip else none

/-- The digit that says how far a block is indented. -/
def incrementAt (c : Cursor) : Option Nat :=
  if c.peek.isDigit then some (c.peek.toNat - 48) else none

/-- The header of a block, and the cursor after it. -/
def blockHeader (c : Cursor) : Except Problem (BlockHeader × Cursor) :=
  -- The two indicators come in either order, and each may be missing.
  let (chomping, increment, c) := match chompingAt c, incrementAt c with
    | some chomping, _ =>
      let c := c.next
      match incrementAt c with
      | some n => (some chomping, some n, c.next)
      | none => (some chomping, none, c)
    | none, some n =>
      let c := c.next
      match chompingAt c with
      | some chomping => (some chomping, some n, c.next)
      | none => (none, some n, c)
    | none, none => (none, none, c)
  if increment = some 0 then .error (.malformed "expected an indentation from 1 to 9")
  else if c.peek = ' ' || isLineEnd c.peek then .ok (⟨chomping.getD .clip, increment⟩, c)
  else .error (.malformed "expected chomping or indentation indicators")

/-- The line breaks before the first line of a block, the widest indentation among the lines passed,
and the cursor after them. -/
def blockStart : (fuel : Nat) → (widest : Nat) → Cursor → List Char × Nat × Cursor
  | 0, widest, c => ([], widest, c)
  | fuel + 1, widest, c =>
    if c.peek = ' ' then blockStart fuel (max widest c.next.column) c.next
    else match c.lineBreak? with
      | none => ([], widest, c)
      | some (b, c) =>
        let (breaks, widest, c) := blockStart fuel widest c
        (b :: breaks, widest, c)

/-- The cursor after the spaces up to a column. -/
def skipIndent (indent : Nat) (c : Cursor) : Cursor :=
  c.skip (min (indent - c.column) (c.run (· = ' ')).length)

/-- The empty lines before the next line of a block. -/
def blockBreaks (indent : Nat) : (fuel : Nat) → Cursor → List Char × Cursor
  | 0, c => ([], c)
  | fuel + 1, c =>
    let c := skipIndent indent c
    match c.lineBreak? with
    | none => ([], c)
    | some (b, c) =>
      let (breaks, c) := blockBreaks indent fuel c
      (b :: breaks, c)

/-- Whether a line of the block is at the cursor. -/
def isAtBlockLine (indent : Nat) (c : Cursor) : Bool := c.column = indent && c.peek ≠ endMark

/-- The lines of a block after some empty lines: the text without the line breaks at the end, the
break of the last line, the empty lines after it, and the cursor after them. -/
def blockLines (isFolded : Bool) (indent : Nat) :
    (fuel : Nat) → (empty : List Char) → Cursor → List Char × List Char × List Char × Cursor
  | 0, empty, c => ([], [], empty, c)
  | fuel + 1, empty, c =>
    if !isAtBlockLine indent c then ([], [], empty, c)
    else
      let isFurther := isGap c.peek
      let line := c.run (!isLineEnd ·)
      let c := c.skip line.length
      let (lineBreak, c) := match c.lineBreak? with
        | some (b, c) => ([b], c)
        | none => ([], c)
      let (breaks, c) := blockBreaks indent (c.rest.length + 1) c
      if isAtBlockLine indent c then
        -- Two lines are folded into one unless either of them is indented further.
        let between :=
          if isFolded && lineBreak = ['\n'] && !isFurther && !isGap c.peek then
            if breaks.isEmpty then [' '] else []
          else lineBreak
        let (rest, last, trailing, c) := blockLines isFolded indent fuel breaks c
        (empty ++ line ++ between ++ rest, last, trailing, c)
      else (empty ++ line, lineBreak, breaks, c)

/-- The block whose indicator is at the cursor, below a parent indented by `indent` columns. -/
def block (indent : Int) (c : Cursor) : Except Problem (List Char × Cursor) := do
  let isFolded := c.peek = '>'
  let (header, c) ← blockHeader c.next
  let c ← c.skipLine
  let least := (max (indent + 1) 1).toNat
  -- A block that does not say how far it is indented is indented as its first line is.
  let (empty, own, c) := match header.increment with
    | none =>
      let (breaks, widest, c) := blockStart (c.rest.length + 1) 0 c
      (breaks, max least widest, c)
    | some n =>
      let own := least + n - 1
      let (breaks, c) := blockBreaks own (c.rest.length + 1) c
      (breaks, own, c)
  let (text, last, trailing, c) := blockLines isFolded own (c.rest.length + 1) empty c
  pure (match header.chomping with
    | .strip => (text, c)
    | .clip => (text ++ last, c)
    | .keep => (text ++ last ++ trailing, c))

end Switchyard.Yaml
