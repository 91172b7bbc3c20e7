import Switchyard.Decimal.Fixed
import Switchyard.Decimal.Reader
import Switchyard.Hook
import Switchyard.Text.LetterCase

/-!
# The console

An audit hook that writes one line per event. A line starts with the first eight characters of the
identifier of the invocation that the console was told last, and the end of a step is written with
the index at which the step of that name was started last in that invocation.
-/

namespace Switchyard

/-- What a console remembers between its lines. -/
structure Console where
  /-- Whether the starts of steps are written as well. -/
  verbose : Bool := true
  correlationId : Option String := none
  /-- The index of each step that was started, the last start first. -/
  started : List (String × Int) := []
  deriving Inhabited

namespace Console

def padded (width : Nat) (s : String) : String :=
  s ++ String.ofList (List.replicate (width - s.length) ' ')

def mark (console : Console) : String :=
  match console.correlationId with
  | some id => if id = "" then "--------" else String.ofList (id.toList.take 8)
  | none => "--------"

def line (console : Console) (level text : String) : String :=
  "[" ++ console.mark ++ "] " ++ padded 5 level ++ " " ++ text

/-- A duration in seconds with three places; one that nobody measured is
written as a sign for it. -/
def elapsed : Option Value → String
  | none => "<t>"
  | some (.atom (.float x)) => Decimal.fixed 3 (Decimal.Binary.ofFloat x) ++ "s"
  -- Integers are written as doubles if there is one near.
  | some (.atom k) => match k.asInt?.bind Decimal.ofInt? with
    | some x => Decimal.fixed 3 (Decimal.Binary.ofFloat x) ++ "s"
    | none => k.shown ++ "s"
  | some v => v.shown .empty ++ "s"

def outputsText (outputs : Int) : String :=
  "(" ++ toString outputs ++ (if outputs = 1 then " output)" else " outputs)")

/-- Where an anomaly happened: the route if it says something, else the step. -/
def place? (context : Entries) : Option Value :=
  match (context.field? "route").filter Store.empty.isPresent with
  | some route => some route
  | none => (context.field? "step").filter Store.empty.isPresent

/-- Takes in an event: the lines that it causes, and what the console remembers then. -/
def tell (console : Console) : AuditCall → List String × Console
  -- Another invocation begins.
  | .identified id => ([], { console with correlationId := some id, started := [] })
  | .stepStarted step index metadata =>
    let console := { console with started := (step, index) :: console.started }
    let uses := match metadata.field? "uses" with
      | some v => v.shown .empty
      | none => "?"
    (if console.verbose then [console.line "INFO" (step ++ "#" ++ toString index ++ " -> " ++ uses)]
      else [], console)
  | .stepEnded step outputs seconds _ =>
    let index := match console.started.lookup step with
      | some n => toString n
      | none => "?"
    ([console.line "INFO" (step ++ "#" ++ index ++ " done in " ++ elapsed seconds ++ " " ++
      outputsText outputs)], console)
  | .anomaly message severity context =>
    let suffix := match place? context with
      | some v => " [" ++ v.shown .empty ++ "]"
      | none => ""
    ([console.line (Text.upper severity) ("!! " ++ message ++ suffix)], console)

def tellAll (console : Console) (calls : List AuditCall) : List String × Console :=
  calls.foldl (fun (lines, console) call =>
    let (more, console) := console.tell call
    (lines ++ more, console)) ([], console)

end Console

end Switchyard
