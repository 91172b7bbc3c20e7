import Switchyard.Decimal.Binary

/-!
# Data

The data that requests carry, that configuration holds and that units exchange. Most data is a
finite tree of scalars, lists, tuples and maps. A container that several holders can see and change
in place is written as the *address* of a cell; the cells themselves live in a store.

The keys of a map are scalars. Two keys are the same key when they are equal as data, so the numbers
`1` and `1.0` and the truth value `true` name one entry.

Data may be nested to any depth and integers may have any size. Neither is limited here as it is by
an interpreter, be it where data is walked over or where it is written out.
-/

namespace Switchyard

/-- Data without parts. -/
inductive Scalar
  | null
  | bool (b : Bool)
  | int (n : Int)
  | float (x : Float)
  | text (s : String)
  | bytes (b : List UInt8)
  /-- Expression source that stands where its value belongs. -/
  | marker (source : String)
  /-- Data of a kind that nothing here looks into; `typeName` is what it is called,
  `shown` how it is written. -/
  | foreign (typeName shown : String)
  deriving Inhabited

/-- A datum; `shared` points to a container in a store. -/
inductive Value
  | atom (s : Scalar)
  | list (items : List Value)
  | tuple (items : List Value)
  | map (entries : List (Scalar × Value))
  | shared (address : Nat)
  deriving Inhabited

namespace Scalar

/-- The integer a scalar counts as: truth values count as zero and one. -/
def asInt? : Scalar → Option Int
  | .bool b => some (if b then 1 else 0)
  | .int n => some n
  | _ => none

/-- Whether two scalars are equal as data, and hence one key of a map. -/
def same : Scalar → Scalar → Bool
  | .null, .null => true
  | .text s, .text t => s == t
  | .bytes b, .bytes c => b == c
  | .marker s, .marker t => s == t
  | .foreign k s, .foreign l t => k == l && s == t
  | .float x, .float y => x == y
  | .float x, s => match s.asInt? with
    | some n => (Decimal.Binary.ofFloat x).isInt n
    | none => false
  | s, .float y => match s.asInt? with
    | some n => (Decimal.Binary.ofFloat y).isInt n
    | none => false
  | s, t => match s.asInt?, t.asInt? with
    | some m, some n => m == n
    | _, _ => false

/-- Whether a scalar counts as present: null, false, zero and everything empty do not. -/
def isPresent : Scalar → Bool
  | .null => false
  | .bool b => b
  | .int n => n != 0
  | .float x => x != 0
  | .text s => s != ""
  | .bytes b => !b.isEmpty
  | .marker _ | .foreign _ _ => true

end Scalar

namespace Value

/-- No value. -/
@[match_pattern] abbrev null : Value := .atom .null

/-- A text. -/
@[match_pattern] abbrev text (s : String) : Value := .atom (.text s)

/-- An integer. -/
@[match_pattern] abbrev int (n : Int) : Value := .atom (.int n)

/-- A truth value. -/
@[match_pattern] abbrev bool (b : Bool) : Value := .atom (.bool b)

def record (entries : List (String × Value)) : Value :=
  .map (entries.map fun (k, v) => (.text k, v))

def texts (items : List String) : Value := .list (items.map .text)

/-- A value that may be missing; null stands for none. -/
def orNull {α : Type} (f : α → Value) : Option α → Value
  | some x => f x
  | none => .null

def asText? : Value → Option String
  | .atom (.text s) => some s
  | _ => none

end Value

/-- The entries of a map, in the order in which their keys first appeared. -/
abbrev Entries := List (Scalar × Value)

namespace Entries

def get? (entries : Entries) (key : Scalar) : Option Value :=
  (entries.find? (·.1.same key)).map (·.2)

def field? (entries : Entries) (name : String) : Option Value := entries.get? (.text name)

def has (entries : Entries) (key : Scalar) : Bool := entries.any (·.1.same key)

/-- The entries with a value put under a key: a key that is present keeps its place and its form. -/
def put : Entries → Scalar → Value → Entries
  | [], key, value => [(key, value)]
  | (k, v) :: rest, key, value =>
    if k.same key then (k, value) :: rest else (k, v) :: put rest key value

def drop (entries : Entries) (key : Scalar) : Entries := entries.filter (!·.1.same key)

/-- The entries that result from putting pairs one after another: the first form of a key and
its last value stay. -/
def ofPairs (pairs : List (Scalar × Value)) : Entries :=
  pairs.foldl (fun entries (k, v) => entries.put k v) []

end Entries

namespace Value

mutual

/-- Whether two data are equal; the order of map entries does not count, and a list is no tuple. -/
def same : Value → Value → Bool
  | .atom s, .atom t => s.same t
  | .list xs, .list ys => sameItems xs ys
  | .tuple xs, .tuple ys => sameItems xs ys
  | .map es, .map fs => es.length == fs.length && sameEntries es fs
  | .shared a, .shared b => a == b
  | _, _ => false

/-- Whether two sequences are equal item by item. -/
def sameItems : List Value → List Value → Bool
  | [], [] => true
  | x :: xs, y :: ys => same x y && sameItems xs ys
  | _, _ => false

/-- Whether every entry has an equal partner in the other map. -/
def sameEntries : List (Scalar × Value) → List (Scalar × Value) → Bool
  | [], _ => true
  | (k, v) :: es, fs =>
    (match Entries.get? fs k with
      | some w => same v w
      | none => false) && sameEntries es fs

end

end Value

end Switchyard
