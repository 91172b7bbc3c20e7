import Switchyard.Report.Definition
import Switchyard.Settings.Build

/-!
# Settings as data

How settings, and what is built from them, are told to a host that takes data.
-/

namespace Switchyard

def EngineSettings.toValue (s : EngineSettings) : Value :=
  .list [Value.orNull (fun x => .atom (.float x)) s.timeout, .int s.cacheSize,
    .text s.defaultMode.word, .bool s.offload]

def AccessSettings.toValue (s : AccessSettings) : Value :=
  .record [("unauthenticated", .bool s.unauthenticated), ("permissions", .texts s.permissions),
    ("roles", .texts s.roles), ("match", Value.orNull (fun m => .text m.word) s.mode)]

def StepSettings.toValue (s : StepSettings) : Value :=
  .record [("name", .text s.name), ("uses", .text s.uses), ("summary", .text s.summary),
    ("with", .map s.config)]

def PipelineSettings.toValue (s : PipelineSettings) : Value :=
  .record [("interface", .text s.route.interface), ("method", .text s.route.method),
    ("summary", .text s.summary), ("output", Value.orNull .text s.output),
      ("authorization", Value.orNull (·.toValue) s.access),
    ("steps", .list (s.steps.map (·.toValue)))]

def Settings.toValue (s : Settings) : Value :=
  .record [("version", .text s.version), ("engine", s.engine.toValue),
    ("pipelines", .list (s.pipelines.map (·.toValue)))]

def Pipeline.toValue (p : Pipeline) : Value :=
  .list (p.headValues ++ [.text p.summary, .list (p.steps.map (·.bindingsValue))])

def Gate.policiesValue (gate : Gate) (routes : List Route) : Value :=
  .list (routes.map fun route =>
    .list [.text route.text,
      Value.orNull (fun p => .texts [p.describe, p.mode.word]) (gate.policyOf? route)])

/-- What is built from settings: the pipelines, what the cache holds then, the gate with its
warnings, and the routes that a dispatcher serves. -/
def Settings.buildValue (s : Settings) : Value :=
  let (pipelines, cache) := s.compilePipelines.run ({} : SourceCache)
  let (table, _) := (s.routeTable {}).run cache
  let gate := s.gate
  .record [("pipelines", Raised.orValue (pipelines.map fun ps => .list (ps.map (·.toValue)))),
    ("cache", .list [.int cache.size, .int cache.bound]),
    ("gate", .record [("len", .int gate.size),
      ("policies", gate.policiesValue (s.pipelines.map (·.route)))]),
    ("logs", .list (s.gateWarnings.map (·.toValue))),
    ("routes", Raised.orValue (table.map fun t =>
      .list (({ table := t } : Service).routeSummaries.map (·.toValue))))]

end Switchyard
