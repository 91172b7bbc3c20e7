import Switchyard.Hook
import Switchyard.Text.LetterCase

/-!
# The journal

The journal keeps structured events and metrics, each stamped with the identifier that was current
when it came, and passes events on as structured log lines. The fields of an event are kept in one
flat record: a field that the caller supplies wins over a stamp of the same name. Log lines below
the journal's threshold are not written.

A word that names no level asks for the level `info`, also where a logger would know another method
by that name. And however fields clash with those of a log line, the error says the same. Both
concern log lines alone.
-/

namespace Switchyard

/-- A sample that the journal keeps. -/
structure JournalMetric where
  name : String
  kind : String
  value : Option Value
  tags : Entries
  correlationId : Option String

/-- The events, metrics and log lines that were written so far, the oldest first. -/
structure Journal where
  /-- The least rank of a log line that is written. -/
  threshold : Int := 20
  /-- The identifier that events and metrics are stamped with. -/
  current : Option String := none
  /-- The fields that every log line gets. -/
  bound : Entries := []
  events : List Entries := []
  metrics : List JournalMetric := []
  lines : List Entries := []

namespace Journal

/-- The level and the rank of the log lines that a word asks for. Any other word asks
for the level `info`. -/
def levelOf (word : String) : String × Int :=
  match word with
  | "debug" => ("debug", 10)
  | "warning" | "warn" => ("warning", 30)
  | "error" | "exception" => ("error", 40)
  | "critical" | "fatal" => ("critical", 50)
  | "notset" => ("notset", 0)
  | _ => ("info", 20)

/-- Changes the identifier that events are stamped with. -/
def stampWith (journal : Journal) (id : String) : Journal := { journal with current := some id }

/-- Changes the identifier of events and of log lines; log lines lose all other bound fields. -/
def identify (journal : Journal) (id : String) : Journal :=
  { journal with current := some id, bound := [(.text "correlation_id", .text id)] }

/-- Adds the route to every log line from now on. -/
def stampRoute (journal : Journal) (route : String) : Journal :=
  { journal with bound := journal.bound.put (.text "route") (.text route) }

/-- An event: its stamps, and then the fields of the caller. -/
def event (journal : Journal) (type : String) (fields : Entries) : Entries :=
  Entries.ofPairs ([(.text "event_type", .text type),
    (.text "correlation_id", (journal.current.map Value.text).getD .null)] ++ fields)

def lineKey : Scalar → Scalar
  | .null => .text "null"
  | .bool b => .text (if b then "true" else "false")
  | .int n => .text (toString n)
  | k => .text k.shown

mutual

/-- A value as log lines write it: sequences are lists, keys are texts, and what has no
other form is displayed. -/
def lineValue : Value → Value
  | .atom (.bytes b) => .text (Scalar.bytes b).displayed
  | .atom (.marker s) => .text (Scalar.marker s).displayed
  | .atom s => .atom s
  | .list items | .tuple items => .list (lineItems items)
  | .map entries => .map (lineEntries entries)
  | .shared address => .shared address

/-- The items of a sequence as log lines write them. -/
def lineItems : List Value → List Value
  | [] => []
  | v :: rest => lineValue v :: lineItems rest

/-- The entries of a map as log lines write them. -/
def lineEntries : List (Scalar × Value) → List (Scalar × Value)
  | [] => []
  | (k, v) :: rest => (lineKey k, lineValue v) :: lineEntries rest

end

/-- The log line of an event. -/
def lineOf (journal : Journal) (type level : String) (fields : Entries) : Entries :=
  let all := Entries.ofPairs (journal.bound ++ fields ++ [(.text "event", .text type)])
  Entries.ofPairs (lineEntries ((all.drop (.text "stack_info")).put (.text "level") (.text level)))

/-- Whether fields cannot be passed on beside the name of the event. -/
def clashes (fields : Entries) : Bool :=
  fields.any fun (k, _) => match k with
    | .text name => name == "event" || name == "self"
    | _ => true

/-- Keeps an event and writes its log line. Fields that clash with the log line's own are refused
once the event has been kept. -/
def log (journal : Journal) (type : String) (fields : Entries) (word : String) :
    Except Raised Unit × Journal :=
  let kept := { journal with events := journal.events ++ [journal.event type fields] }
  let (level, rank) := levelOf (Text.lower word)
  if clashes fields then
    (.error (.broken "TypeError" "got multiple values for argument 'event'"), kept)
  else if rank < journal.threshold then (.ok (), kept)
  else (.ok (), { kept with lines := kept.lines ++ [journal.lineOf type level fields] })

/-- Keeps a metric, whose kind has to be one of three. -/
def record (journal : Journal) (name kind : String) (value : Option Value) (tags : Entries) :
    Except Raised Unit × Journal :=
  if ["gauge", "counter", "histogram"].contains kind then
    (.ok (), { journal with metrics := journal.metrics ++
      [⟨name, kind, value, tags, journal.current⟩] })
  else (.error (.broken "ValueError" (Text.quoted kind ++ " is not a valid MetricKind")), journal)

/-- The events stamped with an identifier. -/
def eventsUnder (journal : Journal) (id : String) : List Entries :=
  journal.events.filter fun event => ((event.field? "correlation_id").bind Value.asText?) == some id

def kindOf : SampleKind → String
  | .timing => "histogram"
  | .count => "counter"
  | .gauge => "gauge"

/-- The level of an anomaly: anything more severe than a warning is an error. -/
def anomalyLevel (severity : String) : String :=
  match Text.upper severity with
  | "DEBUG" => "debug"
  | "INFO" => "info"
  | "WARNING" => "warning"
  | _ => "error"

def audit (journal : Journal) : AuditCall → Except Raised Unit × Journal
  | .identified id => (.ok (), journal.identify id)
  | .stepStarted step index metadata =>
    journal.log "step_started"
      (Entries.ofPairs ([(.text "step", .text step), (.text "step_index", .int index)] ++ metadata))
        "debug"
  | .stepEnded step outputs seconds metadata =>
    let duration := match seconds with
      | some v => [(.text "duration_seconds", v)]
      | none => []
    journal.log "step_finished" (Entries.ofPairs
      ([(.text "step", .text step), (.text "outputs_recorded", .int outputs)] ++ duration ++
        metadata)) "info"
  | .anomaly message severity context =>
    journal.log "anomaly"
      (Entries.ofPairs ([(.text "message", .text message), (.text "severity", .text severity)] ++
        context))
      (anomalyLevel severity)

def measure (journal : Journal) (sample : Sample) : Journal :=
  (journal.record sample.name (kindOf sample.kind) sample.value sample.tags).2

def clear (journal : Journal) : Journal := { journal with events := [], metrics := [] }

/-- Takes in the hook calls of several invocations, each of which has a current
identifier of its own. -/
def tellAll (journal : Journal) (calls : List (Nat × HookCall)) : Journal :=
  (calls.foldl (fun (acc : Journal × List (Nat × String)) (number, call) =>
    let journal := { acc.1 with current := acc.2.lookup number }
    match call with
    | .audit (.identified id) => ((journal.audit (.identified id)).2, (number, id) :: acc.2)
    | .audit call => ((journal.audit call).2, acc.2)
    | .metric sample => (journal.measure sample, acc.2)) (journal, [])).1

end Journal

end Switchyard
