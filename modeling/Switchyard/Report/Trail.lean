import Switchyard.Console
import Switchyard.Journal
import Switchyard.Metrics
import Switchyard.Report.Outcome
import Switchyard.World

/-!
# Trails as data

How the calls of hooks, collected samples and journals are told to a host that takes data. Measured
times differ from run to run; the metrics that hold them are told without their values.
-/

namespace Switchyard

/-- Whether the samples of a metric are measured times. -/
def isMeasured (name : String) : Bool := name.endsWith "_duration_seconds"

/-- Named parts, each with the values of that name in order. -/
def Value.grouped (parts : List (String × Value)) : Value :=
  .record ((parts.map (·.1)).eraseDups.map fun name =>
    (name, .list ((parts.filter (·.1 == name)).map (·.2))))

def AuditCall.toValue (σ : Store) : AuditCall → Value
  | .identified id => .texts ["cid", id]
  | .stepStarted step index metadata =>
    .list [.text "start", .text step, .int index, (Value.map metadata).snapshot σ]
  | .stepEnded step outputs _ _ => .list [.text "end", .text step, .int outputs]
  | .anomaly message severity context =>
    .list [.text "anomaly", .text message, .text severity, (Value.map context).snapshot σ]

def Sample.toValue (s : Sample) : Value :=
  .record [("type", .text s.kind.word), ("value", Value.orNull id s.value), ("tags", .map s.tags)]

def MetricSummary.toEntries (s : MetricSummary) : List (String × Value) :=
  [("count", .int s.count), ("total", s.total), ("last", s.last)]

namespace Metrics

def summaries (m : Metrics) : Except Raised Value := do
  pure (.record (← m.names.mapM fun name => do pure (name, .record (← m.summary name).toEntries)))

/-- All metrics with their samples; what is measured is told without totals. -/
def toValue (m : Metrics) : Except Raised Value := do
  pure (.record (← m.names.mapM fun name => do
    let summary := (← m.summary name).toEntries
    let samples := (m.entries name).map fun s => .list [.text s.kind.word, .map s.tags]
    pure (name, .record (("entries", .list samples) :: if isMeasured name then summary.take 1
      else summary))))

end Metrics

/-- The fields of an event or a log line without its time. -/
def Journal.eventValue (event : Entries) : Value := .map (event.drop (.text "timestamp"))

def JournalMetric.toEntries (m : JournalMetric) : List (String × Value) :=
  [("type", .text m.kind), ("tags", .map m.tags),
    ("correlation_id", Value.orNull .text m.correlationId), ("value", Value.orNull id m.value)]

/-- The metrics of a journal, by name; of what is measured the values are told on demand. -/
def Journal.metricsValue (journal : Journal) (withMeasured : Bool) : Value :=
  .grouped (journal.metrics.map fun m =>
    (m.name, .record (if withMeasured || !isMeasured m.name then m.toEntries
      else m.toEntries.take 3)))

/-- What a host listens to and how it tells it. -/
structure Listening where
  /-- The kind of audit hook: `record`, `raise`, `console`, `quiet`, `obs`, or none. -/
  audit : String := ""
  /-- The kind of metrics hook: `memory`, `raise`, `obs`, or none. -/
  metrics : String := ""

namespace Listening

/-- A hook of a kind, unless nothing is listened to. A hook of the kind `raise`
fails at every call. -/
def hook {κ : Type} (kind : String) : Option (Hook κ) :=
  if kind = "" then none
  else some
    { name := fun _ => kind
      failure :=
        fun _ _ => if kind = "raise" then some (.refused "RuntimeError" "sink down") else none }

def hooks (l : Listening) : Hooks := ⟨hook l.audit, hook l.metrics⟩

/-- The journal of a host that keeps one. -/
def journal (l : Listening) (w : World) : Journal :=
  ({} : Journal).tellAll (w.trail.filter fun (_, call) => match call with
    | .audit _ => l.audit = "obs"
    | .metric _ => l.metrics = "obs")

/-- What a console writes about the part of a trail that comes after another part. -/
def consoleLines (l : Listening) (old new : List AuditCall) : List String :=
  let console : Console := { verbose := l.audit = "console" }
  (((console.tellAll old).2.tellAll new).1).flatMap (·.splitOn "\n")

/-- What happened since an earlier moment of a world. -/
def since (l : Listening) (before w : World) : List (String × Value) :=
  let old := before.audits.length
  let new := w.audits.drop old
  let heard := match l.audit with
    | "record" | "raise" => [("audit", .list (new.map (·.toValue w.store)))]
    | "console" | "quiet" => [("console", .texts (l.consoleLines (w.audits.take old) new))]
    | "obs" => [("events", .list ((l.journal w).events.map Journal.eventValue))]
    | _ => []
  let log := w.surroundings.log.map (·.toValue)
  ("calls", .list (w.surroundings.notes.map (Value.snapshot w.store))) ::
    heard ++ (if log.isEmpty then [] else [("logs", .list log)])

def metricsValue (l : Listening) (w : World) : Value :=
  match l.metrics with
  | "memory" => Raised.orValue (Metrics.toValue ⟨w.samples⟩)
  | "obs" => (l.journal w).metricsValue false
  | _ => .null

end Listening

/-- The world once its notes and its log have been told. -/
def World.told (w : World) : World :=
  { w with surroundings := { w.surroundings with notes := [], log := [] } }

end Switchyard
