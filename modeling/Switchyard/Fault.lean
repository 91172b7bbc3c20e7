import Switchyard.Value.Written

/-!
# What can go wrong

A *fault* is an error that the engine itself describes: it has one of seven kinds, a message and
details. Everything else that can interrupt a computation is gathered in `Raised`: data of the wrong
form, an error of some named class that is not the engine's, and the cancellation of the caller.

A class is known by its name alone, so there are no classes below others. What an error says can
always be told here; errors of which that is not known come up among listeners
(`Switchyard.Listener`) only.
-/

namespace Switchyard

/-- What kind of failure a caller is told about. -/
inductive FailureKind
  | routeNotFound
  | permissionDenied
  | parseError
  | fieldNotFound
  | typeMismatch
  | stepFailure
  | cancelled
  deriving DecidableEq, Repr, Inhabited

namespace FailureKind

def all : List FailureKind :=
  [.routeNotFound, .permissionDenied, .parseError, .fieldNotFound, .typeMismatch,
    .stepFailure, .cancelled]

/-- The code that stands for the kind on the wire. -/
def code : FailureKind → String
  | .routeNotFound => "route_not_found"
  | .permissionDenied => "permission_denied"
  | .parseError => "parse_error"
  | .fieldNotFound => "field_not_found"
  | .typeMismatch => "type_mismatch"
  | .stepFailure => "step_failure"
  | .cancelled => "cancelled"

def title : FailureKind → String
  | .routeNotFound => "RouteNotFound"
  | .permissionDenied => "PermissionDenied"
  | .parseError => "ParseError"
  | .fieldNotFound => "FieldNotFound"
  | .typeMismatch => "TypeMismatch"
  | .stepFailure => "StepFailure"
  | .cancelled => "Cancelled"

def status : FailureKind → Nat
  | .routeNotFound => 404
  | .permissionDenied => 403
  | .cancelled => 499
  | _ => 500

def ofCode? (code : String) : Option FailureKind := all.find? (·.code == code)

end FailureKind

/-- An error described by the engine. Messages and details that come from a unit may be any data. -/
inductive Fault
  /-- Expression source that is not well formed. -/
  | malformed (what : String) (source position : Value)
  /-- A path of fields that leads nowhere. -/
  | missing (path : String) (segment : Value) (reason : String)
  /-- Operands that an operator does not take. -/
  | mismatch (operator : String) (left right : String)
  /-- Pipelines or policies that do not fit together. -/
  | configuration (message : Value) (problems : List Value)
  /-- A route that nobody registered. -/
  | noRoute (interface method : String)
  /-- A caller who may not. -/
  | denied (message : Value)
  /-- A unit that reports its own failure. -/
  | unit (message : Value) (details : Entries)
  /-- An invocation that was called off. -/
  | cancelled (message : Value) (details : Entries)
  deriving Inhabited

namespace Fault

/-- The kind of failure that a fault amounts to. -/
def kind : Fault → FailureKind
  | .malformed .. | .configuration .. => .parseError
  | .missing .. => .fieldNotFound
  | .mismatch .. => .typeMismatch
  | .noRoute .. => .routeNotFound
  | .denied _ => .permissionDenied
  | .unit .. => .stepFailure
  | .cancelled .. => .cancelled

def className : Fault → String
  | .malformed .. => "ParseError"
  | .missing .. => "FieldNotFound"
  | .mismatch .. => "TypeMismatch"
  | .configuration .. => "ConfigurationError"
  | .noRoute .. => "RouteNotFound"
  | .denied _ => "PermissionDenied"
  | .unit .. => "StepError"
  | .cancelled .. => "InvocationCancelled"

def message : Fault → Value
  | .malformed what source position =>
    .text (what ++ " at position " ++ position.shown .empty ++ " in " ++ source.displayed .empty)
  | .missing path _ reason =>
    .text ("Field '" ++ path ++ "' not found" ++ (if reason = "" then "" else ": " ++ reason))
  | .mismatch operator left right =>
    .text ("Cannot apply '" ++ operator ++ "' to " ++ left ++ " and " ++ right)
  | .noRoute interface method => .text ("No route registered for " ++ interface ++ "::" ++ method)
  | .configuration message _ | .denied message | .unit message _ | .cancelled message _ => message

/-- What a fault says about the data it concerns. -/
def details : Fault → Entries
  | .malformed _ source position => [(.text "source", source), (.text "position", position)]
  | .missing path segment _ => [(.text "path", .text path), (.text "segment", segment)]
  | .mismatch operator left right =>
    [(.text "operator", .text operator), (.text "left", .text left), (.text "right", .text right)]
  | .configuration _ problems => [(.text "problems", .list problems)]
  | .noRoute .. | .denied _ => []
  | .unit _ details | .cancelled _ details => details

/-- Pipelines or policies that do not fit together. -/
def ofProblems (message : String) (problems : List String) : Fault :=
  .configuration (.text message) (problems.map Value.text)

end Fault

/-- One step on the way to a misshapen part of the data: a field, or a place in a list. -/
inductive LocationPart
  | field (name : String)
  | place (index : Int)
  deriving DecidableEq, Repr, Inhabited

/-- What is wrong with one part of the data, and where it is. -/
structure Issue where
  rule : String
  location : List LocationPart
  deriving DecidableEq, Repr, Inhabited

/-- The reasons why a computation was interrupted. -/
inductive Raised
  | fault (fault : Fault)
  /-- Data of the wrong form, with all that is wrong with it. -/
  | rejected (issues : List Issue)
  /-- An error of another class, raised on purpose with a text. -/
  | refused (className text : String)
  /-- An error of another class that came up by itself. -/
  | broken (className text : String)
  /-- The caller is gone. -/
  | abandoned
  deriving Inhabited

end Switchyard
