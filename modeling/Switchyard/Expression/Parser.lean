import Switchyard.Expression.Token

/-!
# From tokens to trees

    expression := term ('+' term)*
    term       := literal | path | '(' expression ')'
    path       := NAME ('.' (NAME | INDEX))*
    literal    := TEXT | NUMBER | 'true' | 'false' | 'null'

The reader goes over the tokens once. Its state holds what has been read of the innermost open
expression and, for each open parenthesis, the sum to its left. Sums associate to the left and
parentheses leave no trace in the tree. Parentheses may be nested and sums may be built up to any
depth, without the limit that a stack of calls would set.
-/

namespace Switchyard.Expression

/-- The sum to the left of an operand that is still to come, if there is one. -/
abbrev Pending := Option Tree

/-- The sum extended by an operand on its right. -/
def join : Pending → Tree → Tree
  | none, t => t
  | some left, t => .binary "+" left t

/-- How far an expression has been read. `outer` holds the pending sums of the
expressions around it. -/
inductive Reading
  /-- An operand has to follow. -/
  | awaiting (outer : List Pending) (left : Pending)
  /-- A sum that may go on or end. -/
  | complete (outer : List Pending) (tree : Tree)
  /-- A path that may go on or end; its segments, last first. -/
  | within (outer : List Pending) (left : Pending) (segments : List Segment)
  /-- A path after a dot. -/
  | afterDot (outer : List Pending) (left : Pending) (segments : List Segment)
  deriving Inhabited

/-- The literal that a name stands for, if it is a keyword. -/
def keyword? : String → Option Scalar
  | "true" => some (.bool true)
  | "false" => some (.bool false)
  | "null" => some .null
  | _ => none

namespace Reading

/-- The state before the first token. -/
def start : Reading := .awaiting [] none

/-- Reads a token where an operand has to stand. -/
def operand (outer : List Pending) (left : Pending) (t : Token) : Except ReadError Reading :=
  match t.lexeme with
  | .text s => .ok (.complete outer (join left (.literal (.text s))))
  | .integer n => .ok (.complete outer (join left (.literal (.int n))))
  | .decimal x => .ok (.complete outer (join left (.literal (.atom (.float x)))))
  | .name s => match keyword? s with
    | some literal => .ok (.complete outer (join left (.literal (.atom literal))))
    | none => .ok (.within outer left [.name s])
  -- The sum to the left waits outside of the parentheses.
  | .opening => .ok (.awaiting (left :: outer) none)
  | lexeme => .error (.malformed (.unexpectedToken lexeme) t.start)

/-- Reads a token after a complete sum. -/
def continuation (outer : List Pending) (tree : Tree) (t : Token) : Except ReadError Reading :=
  match t.lexeme, outer with
  | .plus, _ => .ok (.awaiting outer (some tree))
  -- The sum in parentheses is an operand of the one that waited.
  | .closing, left :: outer => .ok (.complete outer (join left tree))
  | lexeme, [] => .error (.malformed (.unexpectedToken lexeme) t.start)
  | _, _ :: _ => .error (.malformed .closingExpected t.start)

/-- The tree of a path whose segments were collected last first. -/
def pathTree (segments : List Segment) : Tree := .path segments.reverse

/-- Reads one token. -/
def step : Reading → Token → Except ReadError Reading
  | .awaiting outer left, t => operand outer left t
  | .complete outer tree, t => continuation outer tree t
  | .within outer left segments, t =>
    match t.lexeme with
    | .dot => .ok (.afterDot outer left segments)
    | _ => continuation outer (join left (pathTree segments)) t
  | .afterDot outer left segments, t =>
    match t.lexeme with
    | .name s => .ok (.within outer left (.name s :: segments))
    | .index n => .ok (.within outer left (.index n :: segments))
    | _ => .error (.malformed .fieldExpected t.start)

/-- Ends the reading at the end of the source. -/
def finish (position : Nat) : Reading → Except ReadError Tree
  | .awaiting _ _ => .error (.malformed .unexpectedEnd position)
  | .complete [] tree => .ok tree
  | .within [] left segments => .ok (join left (pathTree segments))
  | .complete (_ :: _) _ | .within (_ :: _) _ _ => .error (.malformed .closingExpected position)
  | .afterDot _ _ _ => .error (.malformed .fieldExpected position)

end Reading

/-- The tree that tokens spell; `length` is the position of the end of the source. -/
def treeOf (tokens : List Token) (length : Nat) : Except ReadError Tree :=
  if tokens.isEmpty then .error (.malformed .empty 0)
  else do
    let reading ← tokens.foldlM Reading.step Reading.start
    reading.finish length

def read (source : String) : Except ReadError Expression := do
  let tree ← treeOf (← tokens source) source.length
  pure ⟨source, tree⟩

/-- Reads an expression, or tells how its error is raised. -/
def parse (source : String) : Except Raised Expression :=
  match read source with
  | .ok e => .ok e
  | .error e => .error (e.raised source)

/-- Reads an expression from data, which has to be a text. -/
def parseValue (source : Value) : Except Raised Expression :=
  match source with
  | .atom (.text s) => parse s
  | v =>
    .error (.fault (.malformed SourceFault.notText.message (.text (v.displayed .empty)) (.int 0)))

end Switchyard.Expression
