import Switchyard.Text.LetterCase
import Switchyard.Units.Basic

/-!
# The units that are always there

- `expr` returns its resolved `value`, or its `data` when it has no value.
- `log` writes a message to the log and passes its `value` through.

Both expect their configuration to be a map.
-/

namespace Switchyard.Units

def noFields (σ : Store) (config : Value) : Raised :=
  .broken "AttributeError" ("'" ++ config.typeName σ ++ "' object has no attribute 'get'")

/-- Whether one key comes before another, if the two can be compared. -/
def keyBefore? : Scalar → Scalar → Option Bool
  | .text s, .text t => some (s < t)
  | .bytes b, .bytes c => some (b < c)
  | .float x, .float y => some (x < y)
  | .float x, k => k.asInt?.bind fun n => (Decimal.ofInt? n).map (x < ·)
  | k, .float y => k.asInt?.bind fun n => (Decimal.ofInt? n).map (· < y)
  | k, l => k.asInt?.bind fun m => l.asInt?.map (m < ·)

/-- Keys in order, if all of them can be compared. -/
def sortedKeys (keys : List Scalar) : Option (List Scalar) :=
  if keys.length ≤ 1 ∨ keys.all fun k => keys.all fun l => (keyBefore? k l).isSome then
    some (keys.mergeSort fun k l => !(keyBefore? l k).getD false)
  else none

/-- Whether a configuration says something under a name, and what; sequences and texts say nothing
but may hold the name. -/
def lookUp (σ : Store) (config : Value) (name : String) : Except Raised (Option Value) :=
  match config with
  | .atom (.text s) =>
    if (s.splitOn name).length > 1 then
      .error (.broken "TypeError" "string indices must be integers") else .ok none
  | config => match σ.shape config with
    | .mapping entries => .ok (entries.field? name)
    | .sequence items =>
      if items.any (·.same (.text name)) then
        .error (.broken "TypeError" "list indices must be integers or slices")
      else .ok none
    | .scalar _ =>
      .error (.broken "TypeError"
        ("argument of type '" ++ config.typeName σ ++ "' is not iterable"))

/-- The parts by which a configuration is told when it lacks what it needs. -/
def keysOf (σ : Store) (config : Value) : List Scalar :=
  match config with
  | .atom (.text s) => s.toList.map fun c => .text (String.singleton c)
  | config => match σ.shape config with
    | .mapping entries => entries.map (·.1)
    | .sequence items => items.map fun
      | .atom s => s
      | _ => .null
    | .scalar _ => []

/-- The value that an expression unit returns. -/
def selected (σ : Store) (config : Value) : Except Raised Value := do
  match ← lookUp σ config "value" with
  | some v => pure v
  | none => match ← lookUp σ config "data" with
    | some v => pure v
    | none => match sortedKeys (keysOf σ config) with
      | some keys => throw (.fault (.unit (.text "expr unit requires a 'value' or 'data' entry")
          [(.text "keys", .list (keys.map .atom))]))
      | none => throw (.broken "TypeError" "'<' not supported")

def expressionName : String := "expr"

def expression : StepUnit where
  name := expressionName
  typeName := "ExpressionUnit"
  behaviour := some fun config _ s => .done s (selected s.store config)

def levelOf? (word : String) : Option LogLevel :=
  [("debug", .debug), ("info", .info), ("warning", .warning), ("error", .error)].lookup word

/-- The part of a correlation id that log lines start with. -/
def shortId (id : String) : String := String.ofList (id.toList.take 8)

/-- What a log line of a caller starts with: the correlation id between
brackets, if there is one. -/
def callerMark : Caller → String
  | .invocation scope _ => match scope.correlationId with
    | some id => if id = "" then "" else "[" ++ shortId id ++ "] "
    | none => ""
  | .other _ => ""

def logName : String := "log"

/-- What a call of the log unit does. -/
def writeLog (config : Value) (caller : Caller) : Call := fun s =>
  match s.store.entries? config with
  | none => .done s (.error (noFields s.store config))
  | some entries =>
    let word := Text.lower (((entries.field? "level").getD (.text "info")).shown s.store)
    match levelOf? word with
    | none => .done s (.error (.fault (.unit (.text ("Unknown log level '" ++ word ++ "'"))
        [(.text "level", .text word)])))
    | some level =>
      let message := ((entries.field? "message").getD (.text "")).shown s.store
      .done (s.write ⟨"units.log", level, callerMark caller ++ message⟩)
        (.ok ((entries.field? "value").getD .null))

def log : StepUnit where
  name := logName
  typeName := "LogUnit"
  behaviour := some writeLog

end Switchyard.Units
