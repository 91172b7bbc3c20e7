import Switchyard.Form.Field
import Switchyard.Policy
import Switchyard.Route

/-!
# Settings

Settings describe what a dispatcher serves: the limits of the engine, and for each pipeline
its route, its steps and who may use it. They are read from data; everything that is wrong
with the data is reported, in the order of the fields and each part before the next. Fields
that nobody knows are left alone.
-/

namespace Switchyard

/-- The settings of the engine. -/
structure EngineSettings where
  /-- The limit of an invocation in seconds. -/
  timeout : Option Float := some 5
  /-- How many expressions are cached. -/
  cacheSize : Int := 4096
  /-- How the requirements of a policy combine that does not say so itself. -/
  defaultMode : Quantifier := .all
  offload : Bool := false
  deriving Inhabited

/-- Who may use a route. -/
structure AccessSettings where
  unauthenticated : Bool := false
  permissions : List String := []
  roles : List String := []
  mode : Option Quantifier := none
  deriving Inhabited

/-- A step; its configuration has not been compiled yet. -/
structure StepSettings where
  name : String
  uses : String
  config : Entries := []
  summary : String := ""
  deriving Inhabited

/-- A pipeline. -/
structure PipelineSettings where
  route : Route
  summary : String := ""
  output : Option String := none
  access : Option AccessSettings := none
  steps : List StepSettings := []
  deriving Inhabited

/-- All settings. -/
structure Settings where
  version : String := "1.0"
  engine : EngineSettings := {}
  pipelines : List PipelineSettings := []
  deriving Inhabited

/-- The settings of the engine that data stands for. -/
def EngineSettings.check (v : Value) : Checked EngineSettings := do
  let fields ← Form.structure? v
  let initial : EngineSettings := {}
  (Checked.start EngineSettings.mk)
    |>.join (Form.withDefault fields "timeout_seconds" initial.timeout
      (Form.optional Form.positive))
    |>.join (Form.withDefault fields "expression_cache_size" initial.cacheSize (Form.integerFrom 1))
    |>.join (Form.withDefault fields "default_match" initial.defaultMode
      (Form.choice Quantifier.words))
    |>.join (Form.withDefault fields "offload_sync_units" initial.offload Form.truth)

def AccessSettings.check (v : Value) : Checked AccessSettings := do
  let fields ← Form.structure? v
  (Checked.start AccessSettings.mk)
    |>.join (Form.withDefault fields "unauthenticated" false Form.truth)
    |>.join (Form.withDefault fields "permissions" [] (Form.list Form.text))
    |>.join (Form.withDefault fields "roles" [] (Form.list Form.text))
    |>.join (Form.withDefault fields "match" none (Form.optional (Form.choice Quantifier.words)))

/-- The configuration of a step. It may come under either of two names, the first of which counts
when both are there; what is wrong is told under the first. -/
def StepSettings.checkConfig (fields : Entries) : Checked Entries :=
  match (fields.field? "with").or (fields.field? "with_") with
  | some v => Checked.within (.field "with") (Form.dictionary v)
  | none => .ok []

def StepSettings.check (v : Value) : Checked StepSettings := do
  let fields ← Form.structure? v
  (Checked.start StepSettings.mk)
    |>.join (Form.required fields "name" Form.nonEmptyText)
    |>.join (Form.required fields "uses" Form.nonEmptyText)
    |>.join (StepSettings.checkConfig fields)
    |>.join (Form.withDefault fields "summary" "" Form.text)

def PipelineSettings.check (v : Value) : Checked PipelineSettings := do
  let fields ← Form.structure? v
  (Checked.start fun interface method => PipelineSettings.mk ⟨interface, method⟩)
    |>.join (Form.required fields "interface" Form.nonEmptyText)
    |>.join (Form.required fields "method" Form.nonEmptyText)
    |>.join (Form.withDefault fields "summary" "" Form.text)
    |>.join (Form.withDefault fields "output" none (Form.optional Form.text))
    |>.join (Form.withDefault fields "authorization" none (Form.optional AccessSettings.check))
    |>.join (Form.withDefault fields "steps" [] (Form.list StepSettings.check))

def Settings.check (v : Value) : Checked Settings := do
  let fields ← Form.structure? v
  let initial : Settings := {}
  (Checked.start Settings.mk)
    |>.join (Form.withDefault fields "version" initial.version Form.text)
    |>.join (Form.withDefault fields "engine" initial.engine EngineSettings.check)
    |>.join (Form.withDefault fields "pipelines" initial.pipelines
      (Form.list PipelineSettings.check))

end Switchyard
