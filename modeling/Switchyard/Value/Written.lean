import Switchyard.Decimal.Layout
import Switchyard.Text.Quoted
import Switchyard.Value.Store

/-!
# Data in words

Two ways of writing a datum. *Shown* is how it appears inside a message: a text as it is, everything
else as it is displayed. *Displayed* puts texts between quotes and containers between brackets; a
container met again inside itself is written as empty brackets with dots.

There are also two ways of naming its kind: the broad kinds that expressions distinguish, and the
exact name of its type.
-/

namespace Switchyard

def Scalar.displayed : Scalar → String
  | .null => "None"
  | .bool b => if b then "True" else "False"
  | .int n => toString n
  | .float x => Decimal.text x
  | .text s => Text.quoted s
  | .bytes b => Text.quotedBytes b
  | .marker source => "ExpressionRef(source=" ++ Text.quoted source ++ ")"
  | .foreign _ shown => shown

def Scalar.shown : Scalar → String
  | .text s => s
  | s => s.displayed

namespace Value

/-- Items between brackets. -/
def bracketed (left right : String) (parts : List String) : String :=
  left ++ ", ".intercalate parts ++ right

/-- A tuple of one item keeps the comma. -/
def tupleDisplay : List String → String
  | [part] => "(" ++ part ++ ",)"
  | parts => bracketed "(" ")" parts

mutual

/-- How a value is displayed, given how the shared containers in it are. -/
def displayWith (shared : Nat → String) : Value → String
  | .atom s => s.displayed
  | .list items => bracketed "[" "]" (displayItems shared items)
  | .tuple items => tupleDisplay (displayItems shared items)
  | .map entries => bracketed "\x7b" "\x7d" (displayEntries shared entries)
  | .shared address => shared address

def displayItems (shared : Nat → String) : List Value → List String
  | [] => []
  | v :: rest => displayWith shared v :: displayItems shared rest

def displayEntries (shared : Nat → String) : List (Scalar × Value) → List String
  | [] => []
  | (k, v) :: rest =>
    (k.displayed ++ ": " ++ displayWith shared v) :: displayEntries shared rest

end

/-- How the container at an address is displayed. `opened` holds the containers around it; `depth`
bounds how many of them there can be. -/
def displayCell (σ : Store) : (depth : Nat) → (opened : List Nat) → Nat → String
  | 0, _, _ => ""
  | depth + 1, opened, address =>
    let again := opened.contains address
    let inner := displayCell σ depth (address :: opened)
    match σ.cell? address with
    | some (.list items) =>
      if again then "[...]" else displayWith inner (.list items)
    | some (.map entries) =>
      if again then "\x7b...\x7d" else displayWith inner (.map entries)
    | some (.view entries) =>
      "mappingproxy(" ++ (if again then "\x7b...\x7d" else displayWith inner (.map entries)) ++ ")"
    | none => ""

/-- How a value is displayed. No path without repetition is longer than the store. -/
def displayed (σ : Store) (v : Value) : String :=
  displayWith (displayCell σ (σ.cells.size + 1) []) v

/-- How a value appears inside a message. -/
def shown (σ : Store) : Value → String
  | .atom s => s.shown
  | v => v.displayed σ

def typeName (σ : Store) : Value → String
  | .atom .null => "NoneType"
  | .atom (.bool _) => "bool"
  | .atom (.int _) => "int"
  | .atom (.float _) => "float"
  | .atom (.text _) => "str"
  | .atom (.bytes _) => "bytes"
  | .atom (.marker _) => "ExpressionRef"
  | .atom (.foreign name _) => name
  | .list _ => "list"
  | .tuple _ => "tuple"
  | .map _ => "dict"
  | .shared address => match σ.cell? address with
    | some (.list _) => "list"
    | some (.map _) => "dict"
    | some (.view _) | none => "mappingproxy"

/-- The kind of a value as expressions name it; what has no broad kind is named by its type. -/
def kindName (σ : Store) (v : Value) : String :=
  match v with
  | .atom .null => "null"
  | .atom (.bool _) => "boolean"
  | .atom (.int _) | .atom (.float _) => "number"
  | .atom (.text _) => "string"
  | .list _ | .tuple _ => "list"
  | .map _ => "map"
  | .atom _ => v.typeName σ
  | .shared address => match σ.cell? address with
    | some (.list _) => "list"
    | some (.map _) => "map"
    | some (.view _) | none => v.typeName σ

end Value

end Switchyard
