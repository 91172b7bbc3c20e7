import Switchyard.Yaml.Scalar

/-!
# Tokens of a YAML text

The tokens of a text tell its indentation as they tell its brackets: where a block collection begins
and ends is a token of its own. A key of a mapping shows only by the colon after it. Whatever may be
such a key is therefore kept in mind, for as long as the line and not more than 1024 characters, and
the tokens that open the key, and maybe its mapping, are put in before it when the colon comes.

A text that breaks a rule has the tokens up to there; the last one tells what is wrong.
-/

namespace Switchyard.Yaml

/-- What a directive line says. -/
inductive Directive
  /-- The version of the format; only the first number of it counts. -/
  | version (major : Nat)
  /-- What a handle stands for in tags. -/
  | handle (name stands : String)
  | other
  deriving DecidableEq, Repr

/-- A token. -/
inductive Token
  | directive (d : Directive)
  | documentStart
  | documentEnd
  | sequenceStart
  | mappingStart
  | blockEnd
  | flowSequenceStart
  | flowSequenceEnd
  | flowMappingStart
  | flowMappingEnd
  | flowEntry
  | blockEntry
  | key
  | value
  | alias (name : String)
  | anchor (name : String)
  /-- A tag: its handle, unless it is written out in full, and what follows. -/
  | tag (handle : Option String) (suffix : String)
  | scalar (text : String) (isPlain : Bool)
  | done
  | broken (problem : Problem)
  deriving Repr, Inhabited

/-- What may turn out to be a key. -/
structure KeyCandidate where
  /-- How many tokens come before it. -/
  place : Nat
  /-- Whether nothing else can stand there. -/
  isRequired : Bool
  start : Cursor

/-- The state of reading tokens. -/
structure Scanner where
  cursor : Cursor
  /-- How many brackets are open. -/
  depth : Nat := 0
  /-- The column of the current block collection; -1 outside of all. -/
  indent : Int := -1
  /-- The columns of the collections around it. -/
  outer : List Int := []
  /-- Whether a key may stand at the cursor. -/
  keyAllowed : Bool := true
  /-- The candidates, by how many brackets are open around them. -/
  candidates : List (Nat × KeyCandidate) := []
  /-- The tokens so far, last first. -/
  tokens : List Token := []

namespace Scanner

/-- Whether the cursor is between brackets. -/
def inFlow (s : Scanner) : Bool := s.depth ≠ 0

def emit (s : Scanner) (t : Token) : Scanner := { s with tokens := t :: s.tokens }

def emitAt (s : Scanner) (place : Nat) (t : Token) : Scanner :=
  let later := s.tokens.length - place
  { s with tokens := s.tokens.take later ++ t :: s.tokens.drop later }

/-! ## Candidates for keys -/

/-- The problem with a candidate that had to be a key and is none. -/
def missingColon : Problem := .malformed "could not find expected ':'"

/-- Forgets the candidate between the current brackets. -/
def dropCandidate (s : Scanner) : Except Problem Scanner :=
  match s.candidates.lookup s.depth with
  | some candidate =>
    if candidate.isRequired then .error missingColon
    else .ok { s with candidates := s.candidates.filter (·.1 ≠ s.depth) }
  | none => .ok s

/-- Whether a candidate can no longer be a key. -/
def isStale (s : Scanner) (candidate : KeyCandidate) : Bool :=
  candidate.start.line ≠ s.cursor.line || 1024 < s.cursor.index - candidate.start.index

/-- Forgets all candidates that can no longer be keys. -/
def dropStale (s : Scanner) : Except Problem Scanner :=
  if s.candidates.any fun (_, k) => s.isStale k && k.isRequired then .error missingColon
  else .ok { s with candidates := s.candidates.filter fun (_, k) => !s.isStale k }

/-- Keeps in mind that a key may start at the cursor. -/
def noteCandidate (s : Scanner) : Except Problem Scanner :=
  if s.keyAllowed then do
    let isRequired := !s.inFlow && s.indent = s.cursor.column
    let s ← s.dropCandidate
    pure { s with candidates := (s.depth, ⟨s.tokens.length, isRequired, s.cursor⟩) :: s.candidates }
  else .ok s

/-! ## Indentation -/

/-- Ends block collections, from the inside out, that are indented further than a column. -/
def unwindTo (column : Int) : List Int → Scanner → Scanner
  | around :: outer, s =>
    if column < s.indent then
      unwindTo column outer { s.emit .blockEnd with indent := around, outer }
    else s
  | [], s => s

/-- Ends the block collections that are indented further than a column; between brackets
indentation does not count. -/
def unwind (s : Scanner) (column : Int) : Scanner :=
  if s.inFlow then s else unwindTo column s.outer s

/-- Begins a block collection at a column, unless one is there. -/
def beginBlock (s : Scanner) (column : Nat) (place : Nat) (t : Token) : Scanner :=
  if s.indent < column then
    { s.emitAt place t with indent := column, outer := s.indent :: s.outer } else s

/-! ## One token after another -/

def skipBlank : (fuel : Nat) → Scanner → Scanner
  | 0, s => s
  | fuel + 1, s =>
    let c := s.cursor.skipSpaces.skipComment
    -- After a line break a key may start, but not between brackets.
    match c.lineBreak? with
    | some (_, c) => skipBlank fuel { s with cursor := c, keyAllowed := s.keyAllowed || !s.inFlow }
    | none => { s with cursor := c }

def approach (s : Scanner) : Scanner :=
  let c := s.cursor
  let s := if c.index = 0 && c.peek = byteOrderMark then { s with cursor := c.next } else s
  skipBlank (s.cursor.rest.length + 1) s

/-- Begins what stands at the edge of the text outside of all collections. -/
def atEdge (s : Scanner) : Except Problem Scanner := do
  let s ← (s.unwind (-1)).dropCandidate
  pure { s with keyAllowed := false }

/-- A token that is its first characters alone. -/
def sign (s : Scanner) (width : Nat) (t : Token) : Scanner :=
  { s.emit t with cursor := s.cursor.skip width }

def separator (s : Scanner) (t : Token) : Except Problem Scanner := do pure ((← s.atEdge).sign 3 t)

/-- An opening bracket. -/
def openFlow (s : Scanner) (t : Token) : Except Problem Scanner := do
  let s ← s.noteCandidate
  pure { s.sign 1 t with depth := s.depth + 1, keyAllowed := true }

/-- A closing bracket. -/
def closeFlow (s : Scanner) (t : Token) : Except Problem Scanner := do
  let s ← s.dropCandidate
  pure { s.sign 1 t with depth := s.depth - 1, keyAllowed := false }

/-- A comma between brackets. -/
def flowEntry (s : Scanner) : Except Problem Scanner := do
  let s ← s.dropCandidate
  pure { s.sign 1 .flowEntry with keyAllowed := true }

/-- The problem with a part of a block where none may begin. -/
def misplaced (what : String) : Problem := .malformed (what ++ " not allowed here")

/-- A hyphen that opens an entry of a block sequence. -/
def blockEntry (s : Scanner) : Except Problem Scanner := do
  let s ← if s.inFlow then pure s
    else if s.keyAllowed then pure (s.beginBlock s.cursor.column s.tokens.length .sequenceStart)
    else throw (misplaced "sequence entries are")
  let s ← s.dropCandidate
  pure { s.sign 1 .blockEntry with keyAllowed := true }

/-- A question mark that opens a key. -/
def key (s : Scanner) : Except Problem Scanner := do
  let s ← if s.inFlow then pure s
    else if s.keyAllowed then pure (s.beginBlock s.cursor.column s.tokens.length .mappingStart)
    else throw (misplaced "mapping keys are")
  let s ← s.dropCandidate
  pure { s.sign 1 .key with keyAllowed := !s.inFlow }

/-- A colon that opens a value. What was kept in mind as a candidate is a key now. -/
def value (s : Scanner) : Except Problem Scanner :=
  match s.candidates.lookup s.depth with
  | some candidate =>
    let s := { s with candidates := s.candidates.filter (·.1 ≠ s.depth), keyAllowed := false }
    -- The key comes before the tokens that were read since, and so does the start of its mapping.
    let s := s.emitAt candidate.place .key
    let s :=
      if s.inFlow then s else s.beginBlock candidate.start.column candidate.place .mappingStart
    .ok (s.sign 1 .value)
  -- There is no key, so the value belongs to an empty one.
  | none => do
    let s ← if s.inFlow then pure s
      else if s.keyAllowed then pure (s.beginBlock s.cursor.column s.tokens.length .mappingStart)
      else throw (misplaced "mapping values are")
    let s ← { s with keyAllowed := !s.inFlow }.dropCandidate
    pure (s.sign 1 .value)

/-! ## Names and tags -/

/-- The name at the cursor, which something of `enders` or the end of a word has to follow. -/
def name (c : Cursor) (isEnd : Char → Bool) : Except Problem (String × Cursor) :=
  let cs := c.run isNameChar
  let c := c.skip cs.length
  if cs.isEmpty then .error (.malformed "expected a letter or digit")
  else if isEnd c.peek then .ok (String.ofList cs, c)
  else .error (.malformed "found an unexpected character after a name")

/-- Whether the name of an anchor may stop before the character. -/
def endsAnchor (c : Char) : Bool :=
  isWordEnd c || ['?', ':', ',', ']', '\x7d', '%', '@', '\u0060'].contains c

def anchor (s : Scanner) (t : String → Token) : Except Problem Scanner := do
  let s ← s.noteCandidate
  let (name, c) ← name s.cursor.next endsAnchor
  pure { s.emit (t name) with cursor := c, keyAllowed := false }

/-- Whether the character stands for itself in a tag. -/
def isTagChar (c : Char) : Bool := c.isAlphanum || "-;/?:@&=+$,_.!~*'()[]".toList.contains c

/-- The bytes that escapes at the cursor stand for, and the cursor after them. -/
def tagBytes : (fuel : Nat) → Cursor → Except Problem (List UInt8 × Cursor)
  | 0, c => .ok ([], c)
  | fuel + 1, c =>
    if c.peek = '%' then
      match hexNumber? (c.rest.drop 1) 2 with
      | some n => do
        let (bytes, c) ← tagBytes fuel (c.skip 3)
        pure (UInt8.ofNat n :: bytes, c)
      | none => .error (.malformed "expected two hexadecimal digits in a tag")
    else .ok ([], c)

/-- The characters of a tag from the cursor on, with the escapes resolved. -/
def tagChars : (fuel : Nat) → Cursor → Except Problem (List Char × Cursor)
  | 0, c => .ok ([], c)
  | fuel + 1, c =>
    let cs := c.run isTagChar
    let c := c.skip cs.length
    if c.peek = '%' then do
      let (bytes, c) ← tagBytes c.rest.length c
      match String.fromUTF8? ⟨bytes.toArray⟩ with
      | some s =>
        let (rest, c) ← tagChars fuel c
        pure (cs ++ s.toList ++ rest, c)
      | none => throw (.malformed "found bytes in a tag that are no text")
    else .ok (cs, c)

/-- The part of a tag at the cursor, which may not be empty. -/
def tagPart (c : Cursor) : Except Problem (String × Cursor) := do
  if !isTagChar c.peek && c.peek ≠ '%' then throw (.malformed "expected a tag")
  let (cs, c) ← tagChars (c.rest.length + 1) c
  pure (String.ofList cs, c)

/-- The handle at the cursor: an exclamation mark alone, or a name between two of them. -/
def handle (c : Cursor) : Except Problem (String × Cursor) :=
  if c.peek ≠ '!' then .error (.malformed "expected '!'")
  else if c.peekAt 1 = ' ' then .ok ("!", c.next)
  else
    let name := c.next.run isNameChar
    let c := c.skip (name.length + 1)
    if c.peek = '!' then .ok (String.ofList ('!' :: name ++ ['!']), c.next)
    else .error (.malformed "expected '!'")

/-- Whether a tag starts with a handle that has a name. -/
def hasHandle (c : Cursor) : Bool :=
  -- There is a second mark before the end of the word.
  (c.rest.drop 1).takeWhile (fun x => !(isLineEnd x || x = ' ')) |>.contains '!'

def tagToken (c : Cursor) : Except Problem (Token × Cursor) := do
  let (t, c) ←
    -- A tag is written out between angles, or is the mark alone, or a handle with a suffix.
    if c.peekAt 1 = '<' then do
      let (suffix, c) ← tagPart (c.skip 2)
      if c.peek ≠ '>' then throw (.malformed "expected '>'")
      pure (Token.tag none suffix, c.next)
    else if isWordEnd (c.peekAt 1) then pure (Token.tag none "!", c.next)
    else do
      let (handle, c) ← if hasHandle c then handle c else pure ("!", c.next)
      let (suffix, c) ← tagPart c
      pure (Token.tag (some handle) suffix, c)
  if c.peek = ' ' || isLineEnd c.peek then pure (t, c)
  else throw (.malformed "expected a space after a tag")

def tag (s : Scanner) : Except Problem Scanner := do
  let s ← s.noteCandidate
  let (t, c) ← tagToken s.cursor
  pure { s.emit t with cursor := c, keyAllowed := false }

/-! ## Directives -/

def number (c : Cursor) : Except Problem (Nat × Cursor) :=
  let digits := c.run Char.isDigit
  if digits.isEmpty then .error (.malformed "expected a digit")
  else .ok (digits.foldl (fun n d => 10 * n + (d.toNat - 48)) 0, c.skip digits.length)

/-- Goes on only where a word within a line ends. -/
def atGap (c : Cursor) (what : String) : Except Problem Unit :=
  if c.peek = ' ' || isLineEnd c.peek then
    .ok () else .error (.malformed ("expected a space after " ++ what))

def directiveAt (c : Cursor) : Except Problem (Directive × Cursor) := do
  let (name, c) ← name c.next fun x => x = ' ' || isLineEnd x
  match name with
  | "YAML" =>
    let (major, c) ← number c.skipSpaces
    if c.peek ≠ '.' then throw (.malformed "expected a digit or '.'")
    let (_, c) ← number c.next
    atGap c "a version"
    pure (.version major, c)
  | "TAG" =>
    let (handle, c) ← handle c.skipSpaces
    if c.peek ≠ ' ' then throw (.malformed "expected a space after a handle")
    let (stands, c) ← tagPart c.skipSpaces
    atGap c "a tag"
    pure (.handle handle stands, c)
  | _ => pure (.other, c.skipRun (!isLineEnd ·))

def directive (s : Scanner) : Except Problem Scanner := do
  let s ← s.atEdge
  let (d, c) ← directiveAt s.cursor
  pure { s.emit (.directive d) with cursor := ← c.skipLine }

/-! ## Scalars -/

/-- A block of lines. -/
def blockScalar (s : Scanner) : Except Problem Scanner := do
  let s ← { s with keyAllowed := true }.dropCandidate
  let (text, c) ← block s.indent s.cursor
  pure { s.emit (.scalar (String.ofList text) false) with cursor := c }

def quotedScalar (s : Scanner) : Except Problem Scanner := do
  let s ← s.noteCandidate
  let (text, c) ← quoted s.cursor
  pure { s.emit (.scalar (String.ofList text) false) with cursor := c, keyAllowed := false }

/-- A plain scalar. After one that ends in a line break a key may follow. -/
def plainScalar (s : Scanner) : Except Problem Scanner := do
  let s ← s.noteCandidate
  let (text, isCrossing, c) := plain (s.indent + 1) s.inFlow s.cursor
  pure { s.emit (.scalar (String.ofList text) true) with cursor := c, keyAllowed := isCrossing }

/-- Whether a sign at the cursor that opens a key, a value or an entry stands alone. -/
def isAlone (c : Cursor) : Bool := isWordEnd (c.peekAt 1)

/-- The signs that no plain scalar begins with. -/
def indicators : List Char := "-?:,[]\x7b\x7d#&*!|>'\"%@\x60".toList

/-- Whether a plain scalar begins at the cursor. -/
def startsPlain (s : Scanner) : Bool :=
  let x := s.cursor.peek
  -- A sign that does not stand alone may begin a scalar; between brackets only the hyphen.
  (!isWordEnd x && !indicators.contains x) ||
    (!isAlone s.cursor && (x = '-' || (!s.inFlow && (x = '?' || x = ':'))))

/-! ## The whole text -/

/-- Reads the token at the cursor. -/
def token (s : Scanner) : Except Problem Scanner :=
  let c := s.cursor
  let x := c.peek
  if x = '%' && c.column = 0 then s.directive
  else if c.column = 0 && c.isAtMark '-' then s.separator .documentStart
  else if c.column = 0 && c.isAtMark '.' then s.separator .documentEnd
  else if x = '[' then s.openFlow .flowSequenceStart
  else if x = '\x7b' then s.openFlow .flowMappingStart
  else if x = ']' then s.closeFlow .flowSequenceEnd
  else if x = '\x7d' then s.closeFlow .flowMappingEnd
  else if x = ',' then s.flowEntry
  -- The next three are signs where they stand alone, the last two also between brackets.
  else if x = '-' && isAlone c then s.blockEntry
  else if x = '?' && (s.inFlow || isAlone c) then s.key
  else if x = ':' && (s.inFlow || isAlone c) then s.value
  else if x = '*' then s.anchor .alias
  else if x = '&' then s.anchor .anchor
  else if x = '!' then s.tag
  else if (x = '|' || x = '>') && !s.inFlow then s.blockScalar
  else if x = '\'' || x = '"' then s.quotedScalar
  else if s.startsPlain then s.plainScalar
  else .error (.malformed "found a character that cannot start any token")

/-- Reads the tokens from the cursor on. -/
def run : (fuel : Nat) → Scanner → Scanner
  | 0, s => s.emit (.broken (.malformed "found more tokens than characters"))
  | fuel + 1, s =>
    let s := s.approach
    match s.dropStale with
    | .error e => s.emit (.broken e)
    | .ok s =>
      -- The column of what comes next ends the collections that are indented further.
      let s := s.unwind s.cursor.column
      if s.cursor.peek = endMark then
        match s.atEdge with
        | .error e => s.emit (.broken e)
        | .ok s => s.emit .done
      else match s.token with
        | .error e => s.emit (.broken e)
        | .ok s => run fuel s

end Scanner

/-- The tokens of a text. -/
def tokens (text : List Char) : List Token :=
  if text.all isPrintable then
    (Scanner.run (text.length + 1) { cursor := ⟨text, 0, 0, 0⟩ }).tokens.reverse
  else [.broken (.malformed "found a character that is not allowed")]

end Switchyard.Yaml
