import Switchyard.Text.Sorted
import Switchyard.Units.Builtin

/-!
# Units for trying pipelines out

Small units that show what a pipeline does with them: they echo their configuration, take notes of
it, fail in a chosen way, suspend themselves, wait for ever, call their own invocation off, change
data in place, tell what they can see of their invocation, or withdraw the routes of the dispatcher.
-/

namespace Switchyard.Units

/-- A unit for trying pipelines out. -/
def probe (name : String) (behaviour : Value → Caller → Call) : StepUnit where
  name
  typeName := "TestUnit"
  behaviour := some behaviour

/-- Works on the entries of a configuration that has to be a map. -/
def withEntries (config : Value) (work : Entries → Call) : Call := fun s =>
  match s.store.entries? config with
  | some entries => work entries s
  | none => .done s (.error (noFields s.store config))

/-- Answers with the `value` of the configuration. -/
def echo (config : Value) (_ : Caller) : Call :=
  withEntries config fun entries => .answer ((entries.field? "value").getD .null)

/-- Takes a note of the configuration and answers with a copy of it. -/
def noting (config : Value) (_ : Caller) : Call := fun s =>
  match s.store.entries? config with
  | none =>
    .done s (.error (.broken "TypeError"
      ("'" ++ config.typeName s.store ++ "' object is not iterable")))
  | some entries =>
    let (copy, store) := s.store.alloc (.map entries)
    .done ({ s with store }.remark config) (.ok copy)

/-- Details of a failure: a map, or nothing. -/
def detailsOf (σ : Store) (details : Value) : Except Raised Entries :=
  if !σ.isPresent details then .ok []
  else match σ.entries? details with
    | some entries => .ok entries
    | none => .error (.broken "TypeError" ("'" ++ details.typeName σ ++ "' object is not iterable"))

/-- The error of a class with a message as its only argument; a message that is not
present is left out. -/
def plainError (σ : Store) (className : String) (message : Value) : Raised :=
  .broken className <|
    if !σ.isPresent message then ""
    else if className = "KeyError" then message.displayed σ else message.shown σ

/-- The classes of errors that are not faults. -/
def plainClasses : List String := ["RuntimeError", "ValueError", "KeyError", "CustomError"]

/-- The error that a configuration asks for. -/
def requestedError (σ : Store) (entries : Entries) : Raised :=
  let exc := (entries.field? "exc").getD (.text "RuntimeError")
  let message := (entries.field? "message").getD (.text "")
  let details := (entries.field? "details").getD .null
  match exc with
  | .atom (.text "StepError") => match detailsOf σ details with
    | .ok details => .fault (.unit message details)
    | .error e => e
  | .atom (.text "PermissionDenied") => .fault (.denied message)
  | .atom (.text "RouteNotFound") => .fault (.noRoute "x" (message.shown σ))
  | .atom (.text "InvocationCancelled") => .fault (.cancelled message [])
  | .atom (.text "ConfigurationError") => .fault (.configuration message [.text "p1", .text "p2"])
  | .atom (.text "CancelledError") => .abandoned
  | .atom (.text name) =>
    if plainClasses.contains name then plainError σ name message
    else .broken "KeyError" (Text.quoted name)
  | other => .broken "KeyError" (other.displayed σ)

/-- Raises the error that the configuration asks for. -/
def failing (config : Value) (_ : Caller) : Call :=
  withEntries config fun entries s => .done s (.error (requestedError s.store entries))

/-- Suspends once before it works. -/
def suspending (work : Value → Caller → Call) (config : Value) (caller : Caller) : Call :=
  Activity.later (work config caller)

/-- Waits for ever. -/
def hanging (_ : Value) (_ : Caller) : Call :=
  fun s => .waiting s fun t => .done t (.error .abandoned)

/-- Calls its own invocation off, if that can be done. -/
def cancelling (_ : Value) (caller : Caller) : Call := fun s =>
  match caller with
  | .invocation _ signal => .done (s.give signal) (.ok (.text "cancelling"))
  | .other _ => .done s (.ok (.text "cancelling"))

/-- Appends to the list under `items` in place. -/
def mutating (config : Value) (_ : Caller) : Call :=
  withEntries config fun entries s =>
    match entries.field? "items" with
    | none => .done s (.error (.broken "KeyError" "'items'"))
    | some (.shared address) => match s.store.cell? address with
      | some (.list items) =>
        .done { s with store := s.store.set address (.list (items ++ [.text "mutated"])) }
          (.ok (.shared address))
      | _ => .done s (.error (noAppend s.store (.shared address)))
    | some (.list items) => .done s (.ok (.list (items ++ [.text "mutated"])))
    | some v => .done s (.error (noAppend s.store v))
where
  /-- The error that nothing can be appended to a value. -/
  noAppend (σ : Store) (v : Value) : Raised :=
    .broken "AttributeError" ("'" ++ v.typeName σ ++ "' object has no attribute 'append'")

/-- Tells what the unit can see of its invocation. -/
def describing (_ : Value) (caller : Caller) : Call := fun s =>
  match caller with
  | .other data =>
    .done s (.error (.broken "AttributeError"
      ("'" ++ data.typeName s.store ++ "' object has no attribute 'input'")))
  | .invocation scope _ =>
    let textOrNull := fun (t : Option String) => (t.map Value.text).getD .null
    let last := match scope.outputs.last with
      | some (name, v) => [.text name, v]
      | none => []
    let (seen, s) := s.layOut (Value.record
      [("input", scope.input), ("cid", textOrNull scope.correlationId),
        ("names", .list (scope.outputs.names.map .text)), ("subject", textOrNull scope.subject),
        ("last", .list last), ("roots",
          .list ((Text.sorted (scope.roots.map (·.1.shown))).map .text))])
    .done s (.ok seen)

/-- Withdraws the routes of the dispatcher, if the unit serves one. -/
def withdrawing (serving : Bool) (_ : Value) (_ : Caller) : Call := fun s =>
  if serving then .done { s with withdrawn := true } (.ok (.text "dropped"))
  else .done s (.error (.broken "AttributeError" "'NoneType' object has no attribute 'reload'"))

/-- All units for trying pipelines out. `serving` says whether they serve a dispatcher. -/
def probes (serving : Bool) : List StepUnit :=
  [probe "echo" echo, probe "recorder" noting, probe "fail" failing,
    probe "async_echo" (suspending echo), probe "async_fail" (suspending failing),
      probe "hang" hanging, probe "cancel" cancelling,
    probe "mutate" mutating, probe "ctx" describing, probe "drop_routes" (withdrawing serving)]

end Switchyard.Units
