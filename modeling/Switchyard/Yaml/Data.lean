import Switchyard.Text.Blank
import Switchyard.Text.Digit
import Switchyard.Text.LetterCase
import Switchyard.Text.Sorted
import Switchyard.Value.Snapshot
import Switchyard.Yaml.Base64
import Switchyard.Yaml.Node

/-!
# The data of a YAML document

What the nodes of a document stand for as data. A document is gone through level by level, so of all
that is wrong the shallowest comes first; on one level what comes first counts. The marker tag
stands for the source of an expression.
-/

namespace Switchyard.Yaml

/-- A problem, and how far below the node in question it is. -/
structure Flaw where
  depth : Nat
  problem : Problem

/-- What a node stands for, or its first flaw. -/
abbrev Reading (α : Type) := Except Flaw α

namespace Reading

variable {α β γ : Type}

def fail (problem : Problem) : Reading α := .error ⟨0, problem⟩

def malformed (what : String) : Reading α := fail (.malformed what)

/-- The same for a node one level further up. -/
def below : Reading α → Reading α
  | .ok x => .ok x
  | .error flaw => .error { flaw with depth := flaw.depth + 1 }

/-- Two nodes together, the first of which comes first. -/
def both (f : α → β → γ) (x : Reading α) (y : Reading β) : Reading γ :=
  match x, y with
  | .ok x, .ok y => .ok (f x y)
  | .ok _, .error flaw => .error flaw
  | .error flaw, .ok _ => .error flaw
  | .error flaw, .error other => .error (if other.depth < flaw.depth then other else flaw)

end Reading

/-! ## Scalars -/

def unfit {α : Type} (className what : String) : Except Problem α := .error (.unfit className what)

/-- The text of a number without its underscores, which may not be empty. -/
def numeral (text : String) : Except Problem (List Char) :=
  let cs := text.toList.filter (· ≠ '_')
  if cs.isEmpty then unfit "IndexError" "a number has no digits" else .ok cs

/-- The digit that a character stands for in some base. -/
def digitValue? (base : Nat) (c : Char) : Option Nat :=
  let value := match Text.decimalDigit? c with
    | some n => some n
    | none =>
      if 'a' ≤ c ∧ c ≤ 'z' then some (c.toNat - 87)
      else if 'A' ≤ c ∧ c ≤ 'Z' then some (c.toNat - 55)
      else none
  value.filter (· < base)

/-- The letter that announces numbers in some base. -/
def baseLetter (base : Nat) : Option Char :=
  match base with
  | 2 => some 'b'
  | 8 => some 'o'
  | 16 => some 'x'
  | _ => none

/-- Digits without the sign for their base. -/
def withoutBase (base : Nat) (cs : List Char) : List Char :=
  match cs with
  | '0' :: c :: rest => if baseLetter base = some c.toLower then rest else cs
  | cs => cs

/-- The integer that digits in some base stand for. Blanks around them, a sign and the sign for
the base are allowed. -/
def integerIn (base : Nat) (cs : List Char) : Except Problem Int :=
  let (negative, size) := Decimal.splitSign (Text.strip (String.ofList cs)).toList
  let digits := withoutBase base size
  match digits.mapM (digitValue? base) with
  | some ds =>
    if ds.isEmpty then unfit "ValueError" "an integer has no digits"
    else
      let n : Int := (ds.foldl (fun n d => base * n + d) 0 : Nat)
      .ok (if negative then -n else n)
  | none => unfit "ValueError" "this is no integer"

def signed (cs : List Char) : Bool × List Char :=
  match cs with
  | '-' :: rest => (true, rest)
  | '+' :: rest => (false, rest)
  | cs => (false, cs)

/-- The size of the integer that a text without a sign stands for. -/
def integerSize (cs : List Char) : Except Problem Int :=
  match cs with
  | [] => unfit "IndexError" "an integer has no digits"
  | ['0'] => .ok 0
  | '0' :: 'b' :: digits => integerIn 2 digits
  | '0' :: 'x' :: digits => integerIn 16 digits
  | '0' :: _ => integerIn 8 cs
  | cs =>
    if cs.contains ':' then do
      let parts ← (colonParts cs).mapM (integerIn 10)
      pure (parts.foldl (fun n part => 60 * n + part) 0)
    else integerIn 10 cs

def integer (text : String) : Except Problem Int := do
  let (negative, size) := signed (← numeral text)
  let n ← integerSize size
  pure (if negative then -n else n)

def decimal (cs : List Char) : Except Problem Float :=
  match Decimal.read? (Text.strip (String.ofList (cs.map fun c => match Text.decimalDigit? c with
    | some n => Char.ofNat (48 + n)
    | none => c))) with
  | some x => .ok x
  | none => unfit "ValueError" "this is no number"

/-- The size of the number that a text without a sign stands for. -/
def numberSize (cs : List Char) : Except Problem Float :=
  if cs = ".inf".toList then .ok (1.0 / 0.0)
  else if cs = ".nan".toList then .ok (0.0 / 0.0)
  else if cs.contains ':' then do
    let parts ← (colonParts cs).mapM decimal
    pure (parts.reverse.foldl (fun (acc : Float × Float) part => (acc.1 + part * acc.2, acc.2 * 60))
      (0, 1)).1
  else decimal cs

def number (text : String) : Except Problem Float := do
  let (negative, size) := signed ((← numeral text).map Char.toLower)
  let x ← numberSize size
  pure (if negative then -x else x)

def truth (text : String) : Except Problem Bool :=
  match truthWords.lookup (Text.lower text) with
  | some b => .ok b
  | none => unfit "KeyError" "this is no truth value"

def timestamp (text : String) : Except Problem Scalar :=
  match Timestamp.read? text.toList with
  | none => unfit "AttributeError" "this is no point in time"
  | some t =>
    if t.isReal then .ok (.foreign t.typeName t.shown)
    else unfit "ValueError" "there is no such point in time"

def bytes (text : String) : Except Problem (List UInt8) :=
  if text.toList.all (·.toNat < 128) then
    match bytesOf text.toList with
    | some b => .ok b
    | none => .error (.malformed "failed to decode base64 data")
  else .error (.malformed "failed to convert base64 data into bytes")

def expressionTag : String := "!expr"

/-- What a scalar of a type stands for; none of the types of collections will do. -/
def scalarData (tag text : String) : Except Problem Scalar :=
  if tag = expressionTag then .ok (.marker text)
  else if tag = coreTag "str" then .ok (.text text)
  else if tag = coreTag "null" then .ok .null
  else if tag = coreTag "bool" then (truth text).map .bool
  else if tag = coreTag "int" then (integer text).map .int
  else if tag = coreTag "float" then (number text).map .float
  else if tag = coreTag "binary" then (bytes text).map .bytes
  else if tag = coreTag "timestamp" then timestamp text
  else .error (.malformed ("could not determine a constructor for the tag " ++ tag))

/-! ## Collections -/

/-- What a type of collections takes: a sequence of data, a sequence of single pairs, a mapping,
or the keys of one. -/
inductive Shape
  | items
  | pairs
  | map
  | keys
  deriving DecidableEq, Repr

def shape? (tag : String) : Option Shape :=
  if tag = coreTag "seq" then some .items
  else if tag = coreTag "omap" || tag = coreTag "pairs" then some .pairs
  else if tag = coreTag "map" then some .map
  else if tag = coreTag "set" then some .keys
  else none

/-- The problem with a node of the wrong shape. -/
def wrongShape : Problem := .malformed "expected a node of another kind"

/-- The problem with a collection whose tag is that of a scalar or unknown. -/
def wrongTag (tag : String) : Problem := .malformed ("no collection has the tag " ++ tag)

/-- Whether a key merges other mappings into its own. -/
def isMerge (key : Node) : Bool := key.tag = coreTag "merge"

mutual

/-- Whether what is merged into a mapping are mappings, all the way down. -/
def mergesMappings : List (Node × Node) → Bool
  | [] => true
  | (key, value) :: rest => (!isMerge key || isMergeable value) && mergesMappings rest

/-- Whether a node can be merged into a mapping: it is a mapping, or a sequence of mappings. -/
def isMergeable : Node → Bool
  | .mapping _ pairs => mergesMappings pairs
  | .sequence _ items => areMergeable items
  | .enclosing => true
  | .scalar .. => false

/-- Whether all items of a sequence are mappings that can be merged. -/
def areMergeable : List Node → Bool
  | [] => true
  | .mapping _ pairs :: rest => mergesMappings pairs && areMergeable rest
  | .enclosing :: rest => areMergeable rest
  | _ :: _ => false

end

/-- The text of a key with the sign for a plain value, which is a key like any other. -/
def plainKey? : Node → Option String
  | .scalar tag text => if tag = coreTag "value" then some text else none
  | _ => none

/-- The keys of a mapping alone; texts come in order. -/
def keyList (entries : Entries) : List Value :=
  let keys := entries.map fun (k, _) => Value.atom k
  match keys.mapM Value.asText? with
  | some names => (Text.sorted names).map .text
  | none => keys

/-- What a key stands for, which has to be a scalar. -/
def keyData (key : Reading Value) : Reading Scalar :=
  match key with
  | .ok (.atom k) => .ok k
  | .ok _ => Reading.malformed "found unhashable key"
  | .error flaw => .error flaw

/-- The pairs of a mapping: those that are merged into it come before its own. -/
structure Pairs where
  merged : Entries
  own : Entries

def Pairs.all (pairs : Pairs) : Entries := pairs.merged ++ pairs.own

/-- The pairs that a value of a merging key brings, before others. -/
def Pairs.after (merged : Entries) (rest : Pairs) : Pairs :=
  { rest with merged := merged ++ rest.merged }

def Pairs.cons (pair : Scalar × Value) (rest : Pairs) : Pairs :=
  { rest with own := pair :: rest.own }

mutual

/-- What a node stands for. -/
def data : Node → Reading Value
  | .scalar tag text =>
    match shape? tag with
    | some _ => .error ⟨1, wrongShape⟩
    | none => match scalarData tag text with
      | .ok s => .ok (.atom s)
      | .error problem => Reading.fail problem
  | .sequence tag items =>
    match shape? tag with
    | some .items => (itemsData items).below.map .list
    | some .pairs => (pairsData items).below.map .list
    | some _ => .error ⟨1, wrongShape⟩
    | none => Reading.fail (wrongTag tag)
  | .mapping tag pairs =>
    match shape? tag with
    | some .map =>
      if mergesMappings pairs then (entriesData pairs).below.map fun pairs =>
        .map (Entries.ofPairs pairs.all)
      else .error ⟨1, .malformed "expected a mapping or list of mappings for merging"⟩
    | some .keys =>
      if mergesMappings pairs then (entriesData pairs).below.map fun pairs =>
        .list (keyList (Entries.ofPairs pairs.all))
      else .error ⟨1, .malformed "expected a mapping or list of mappings for merging"⟩
    | some _ => .error ⟨1, wrongShape⟩
    | none => match plainValue pairs with
      | some text => if tag = expressionTag then Reading.fail (wrongTag tag) else
        match scalarData tag text with
        | .ok s => .ok (.atom s)
        | .error problem => Reading.fail problem
      | none => Reading.fail (wrongTag tag)
  | .enclosing => .ok .again

def itemsData : List Node → Reading (List Value)
  | [] => .ok []
  | node :: rest => Reading.both (· :: ·) (data node) (itemsData rest)

/-- What the items of a sequence of single pairs stand for. -/
def pairsData : List Node → Reading (List Value)
  | [] => .ok []
  | .mapping _ [(key, value)] :: rest =>
    Reading.both (· :: ·) (Reading.both (fun k v => .tuple [k, v]) (data key) (data value))
      (pairsData rest)
  | _ :: _ => Reading.malformed "expected a mapping of length 1"

def entriesData : List (Node × Node) → Reading Pairs
  | [] => .ok ⟨[], []⟩
  | (key, value) :: rest =>
    if isMerge key then Reading.both Pairs.after (mergedData value) (entriesData rest)
    else
      let name := match plainKey? key with
        | some text => .ok (.text text)
        | none => data key
      Reading.both Pairs.cons (Reading.both Prod.mk (keyData name) (data value)) (entriesData rest)

/-- The pairs that a node brings that is merged into a mapping. -/
def mergedData : Node → Reading Entries
  | .mapping _ pairs => (entriesData pairs).map Pairs.all
  | .sequence _ items => mergedItems items
  | _ => .ok []

/-- The pairs that the items of a sequence bring, the last item first. -/
def mergedItems : List Node → Reading Entries
  | [] => .ok []
  | .mapping _ pairs :: rest =>
    Reading.both (fun pairs later => later ++ pairs.all) (entriesData pairs) (mergedItems rest)
  | _ :: rest => mergedItems rest

/-- The text that stands for a whole mapping: its plain value. -/
def plainValue : List (Node × Node) → Option String
  | [] => none
  | (key, value) :: rest =>
    if key.tag = coreTag "value" then
      match value with
      | .scalar _ text => some text
      | .mapping _ pairs => plainValue pairs
      | _ => none
    else plainValue rest

end

end Switchyard.Yaml
