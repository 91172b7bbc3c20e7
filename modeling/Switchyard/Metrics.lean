import Switchyard.Decimal.Reader
import Switchyard.Hook

/-!
# Metrics in memory

A collector keeps every sample that it is told. Totals are sums from left to right that start at the
integer zero; an integer that meets a double becomes the double nearest to it.
-/

namespace Switchyard

/-- The samples that were collected, the oldest first. -/
structure Metrics where
  samples : List Sample := []
  deriving Inhabited

/-- What is told about all samples of one metric. -/
structure MetricSummary where
  count : Nat
  total : Value
  last : Value

namespace Metrics

def plus (x y : Value) : Except Raised Value :=
  let wide := fun (n : Int) => match Decimal.ofInt? n with
    | some x => .ok x
    | none => .error (.broken "OverflowError" "int too large to convert to float")
  match x, y with
  | .atom (.float x), .atom (.float y) => .ok (.atom (.float (x + y)))
  | .atom (.float x), .atom k => match k.asInt? with
    | some n => do pure (.atom (.float (x + (← wide n))))
    | none => .error (.broken "TypeError" "unsupported operand")
  | .atom k, .atom (.float y) => match k.asInt? with
    | some n => do pure (.atom (.float ((← wide n) + y)))
    | none => .error (.broken "TypeError" "unsupported operand")
  | .atom k, .atom l => match k.asInt?, l.asInt? with
    | some m, some n => .ok (.int (m + n))
    | _, _ => .error (.broken "TypeError" "unsupported operand")
  | _, _ => .error (.broken "TypeError" "unsupported operand")

def sum (values : List Value) : Except Raised Value := values.foldlM plus (.int 0)

/-- The value of a sample; what nobody measured counts as nothing. -/
def measured (sample : Sample) : Value := sample.value.getD (.int 0)

def add (metrics : Metrics) (sample : Sample) : Metrics := ⟨metrics.samples ++ [sample]⟩

def entries (metrics : Metrics) (name : String) : List Sample :=
  metrics.samples.filter (·.name == name)

/-- The names of the metrics, in the order of their first samples. -/
def names (metrics : Metrics) : List String := (metrics.samples.map (·.name)).eraseDups

/-- Whether a sample has all of some tags; a missing tag counts as null. -/
def hasTags (tags : Entries) (sample : Sample) : Bool :=
  tags.all fun (k, v) => ((sample.tags.get? k).getD .null).same v

/-- The total of a metric over the samples that have all of some tags. -/
def total (metrics : Metrics) (name : String) (tags : Entries) : Except Raised Value :=
  sum (((metrics.entries name).filter (hasTags tags)).map measured)

def summary (metrics : Metrics) (name : String) : Except Raised MetricSummary := do
  let samples := metrics.entries name
  let total ← sum (samples.map measured)
  pure ⟨samples.length, total, (samples.getLast?.map measured).getD .null⟩

def clear (_ : Metrics) : Metrics := {}

end Metrics

def SampleKind.word : SampleKind → String
  | .timing => "timing"
  | .count => "count"
  | .gauge => "gauge"

end Switchyard
