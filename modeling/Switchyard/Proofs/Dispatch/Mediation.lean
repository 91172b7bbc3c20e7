import Switchyard.Proofs.Dispatch.Course

/-!
# Complete mediation

No request reaches a unit but through the gate. That no unit is called shows in the following way:
whatever other units are put behind the names that steps use, units that answer, fail, wait or
change the surroundings, nothing about the handling of the request changes.

Main statement: `handle_mediated`.
-/

namespace Switchyard

/-- A hook call that tells of a step. -/
def HookCall.IsStep : HookCall → Prop
  | .audit (.stepStarted ..) | .audit (.stepEnded ..) => True
  | .audit _ => False
  | .metric sample => sample.name = "step_duration_seconds" ∨ sample.name = "step_failures_total"

/-- The service with other units behind the names that steps use. -/
def Service.withUnits (service : Service) (units : List (String × Option StepUnit)) : Service :=
  { service with
    table := { service.table with pipelines := { service.table.pipelines with units } } }

namespace Dispatcher

variable {d : Dispatcher} {service : Service} {request : Request} {number : Nat}
  {route : Route} {id : String} {outcome : Outcome} {decision : Decision} {w : World}
  {units : List (String × Option StepUnit)}

/-- **Refusal**: whatever the units are, the request is answered at once with the failure; the
surroundings stay as they are, and no hook is told of a step. -/
def Refuses (d : Dispatcher) (service : Service) (request : Request) (failure : Failure) : Prop :=
  ∃ w : World, w.surroundings = service.world.surroundings ∧
    World.Adds service.received (fun call => ¬ call.IsStep) service.world w ∧
    ∀ units, d.handle request (service.withUnits units) =
      .done (answeredAtOnce (service.withUnits units) w)
      (.ok { outcome := .failed failure [], correlationId := some (d.idOf service request) })

/-! ## §1 Other units -/

@[simp] theorem asksFor_withUnits :
    asksFor (service.withUnits units) request = asksFor service request := by
  -- A table that was withdrawn serves nothing, and the other one has the same routes.
  cases h : service.world.surroundings.withdrawn
  · simp only [asksFor, Service.current, Service.withUnits, h]
    rfl
  · simp only [asksFor, Service.current, Service.withUnits, h, ↓reduceIte]

@[simp] theorem decides_withUnits :
    decides (service.withUnits units) request = decides service request := by
  cases h : service.world.surroundings.withdrawn
  · simp only [decides, Service.current, Service.withUnits, h]
    rfl
  · simp only [decides, Service.current, Service.withUnits, h, ↓reduceIte]

/-! ## §2 What the hooks are told -/

theorem adds_welcome : World.Adds service.received
    (fun call => ¬ call.IsStep) service.world (d.welcome service request) :=
  World.adds_audit (by simp [HookCall.IsStep])

@[simp] theorem welcome_surroundings :
    (d.welcome service request).surroundings = service.world.surroundings :=
  World.audit_surroundings

theorem adds_conclude :
    World.Adds number (fun call => ¬ call.IsStep) w (d.conclude number route id outcome w).1 :=
  (World.adds_measure (by simp [HookCall.IsStep])).trans
    (World.adds_measure (by simp [HookCall.IsStep]))

@[simp] theorem conclude_surroundings :
    (d.conclude number route id outcome w).1.surroundings = w.surroundings := by
  simp [conclude]

theorem adds_reportDenial :
    World.Adds number (fun call => ¬ call.IsStep) w (d.reportDenial number route decision w) :=
  (World.adds_audit (by simp [HookCall.IsStep])).trans
    (World.adds_measure (by simp [HookCall.IsStep]))

@[simp] theorem reportDenial_surroundings :
    (d.reportDenial number route decision w).surroundings = w.surroundings := by
  simp [reportDenial]

/-! ## §3 Refusals -/

/-- **A route that is not served** is refused, whatever the gate and the credentials are. -/
theorem refuses_of_unserved (h : asksFor service request = none) :
    d.Refuses service request (absence request.route) := by
  refine ⟨(d.conclude service.received request.route (d.idOf service request)
    (.failed (absence request.route) []) (d.welcome service request)).1, ?_,
      adds_welcome.trans adds_conclude, fun units => ?_⟩
  · rw [conclude_surroundings, welcome_surroundings]
  · rw [handle_of_unserved (by simpa using h)]
    rfl

/-- **A caller who is denied** is refused, always with the same failure. -/
theorem refuses_of_denied {pipeline : Pipeline} (h : asksFor service request = some pipeline)
    (hdenied : (decides service request).allowed = false) :
    d.Refuses service request Failure.denial := by
  refine ⟨(d.conclude service.received request.route (d.idOf service request)
    (.failed Failure.denial []) (d.reportDenial service.received request.route
      (decides service request) (d.welcome service request))).1,
    ?_, (adds_welcome.trans adds_reportDenial).trans adds_conclude, fun units => ?_⟩
  · rw [conclude_surroundings, reportDenial_surroundings, welcome_surroundings]
  · rw [handle_of_denied (by simpa using h) (by simpa using hdenied), decides_withUnits]
    rfl

/-! ## §4 Mediation -/

/-- **Complete mediation**: a route that is not served is told as such; a caller who is denied is
told one failure that depends on nothing; whoever is not refused asks for a route that is served and
is allowed to use it; and such a caller is answered with what the run of the pipeline ends with,
under the identifier of the request, unless the limit passes. -/
theorem handle_mediated (d : Dispatcher) (service : Service) (request : Request) :
    (asksFor service request = none →
      d.Refuses service request ⟨.routeNotFound,
        "No route registered for " ++ request.route.interface ++ "::" ++ request.route.method,
          none, none, []⟩) ∧
    ((asksFor service request).isSome → (decides service request).allowed = false →
      d.Refuses service request ⟨.permissionDenied, "Permission denied", none, none, []⟩ ∧
        FailureKind.permissionDenied.status = 403) ∧
    ((¬ ∃ failure, d.Refuses service request failure) →
      (asksFor service request).isSome ∧ (decides service request).allowed = true) ∧
    ∀ pipeline, asksFor service request = some pipeline → (decides service request).allowed = true →
      ∀ off states r, (∃ s, (d.handle request service).Ends off states s r) ↔
        ∃ u result,
          d.Course ((d.engineOf service).run pipeline (d.invocationOf service request)) off
            (d.welcome service request) (states.map (·.world)) u result ∧
          r = d.answered (d.idOf service request) result := by
  have hdenial : (asksFor service request).isSome → (decides service request).allowed = false →
      d.Refuses service request ⟨.permissionDenied, "Permission denied", none, none, []⟩ := by
    intro hserved hdenied
    obtain ⟨pipeline, hpipeline⟩ := Option.isSome_iff_exists.mp hserved
    exact refuses_of_denied hpipeline hdenied
  refine ⟨refuses_of_unserved, fun hserved hdenied => ⟨hdenial hserved hdenied, rfl⟩,
    fun hnot => ?_,
    fun pipeline hpipeline hallowed off states r => handle_ends_iff_of_allowed hpipeline hallowed⟩
  -- Who is not refused asks for a route that is served and is not denied.
  cases hasks : asksFor service request with
  | none => exact absurd ⟨_, refuses_of_unserved hasks⟩ hnot
  | some pipeline =>
    refine ⟨rfl, ?_⟩
    by_contra hallowed
    exact hnot ⟨_, hdenial (by rw [hasks]; rfl) (by simpa using hallowed)⟩

/-- A service with two routes, of which everyone may use the one and nobody the other. -/
def deskService : Service where
  table :=
    { pipelines :=
        { pipelines := .ofList [(⟨"desk", "open"⟩, { route := ⟨"desk", "open"⟩ }),
            (⟨"desk", "closed"⟩, { route := ⟨"desk", "closed"⟩ })]
          units := [] }
      gate := .ofEntries [(⟨"desk", "open"⟩, .everyone)] }

/-- The dispatcher of the two routes. -/
def deskDispatcher : Dispatcher where
  newId := fun _ => "id"

/-- What mediation comes to for three requests: one for no route at all, one that is denied, and
one that is allowed. -/
theorem handle_mediated_at_desk :
    deskDispatcher.Refuses deskService { route := ⟨"desk", "none"⟩ }
      ⟨.routeNotFound, "No route registered for desk::none", none, none, []⟩ ∧
    deskDispatcher.Refuses deskService { route := ⟨"desk", "closed"⟩ }
      ⟨.permissionDenied, "Permission denied", none, none, []⟩ ∧
    (decides deskService { route := ⟨"desk", "open"⟩ }).allowed = true ∧
    ((∃ s, (deskDispatcher.handle { route := ⟨"desk", "open"⟩ } deskService).Ends false [] s
        (.ok { outcome := .success .null [], correlationId := some "id" })) ↔
      ∃ u result, deskDispatcher.Course ((deskDispatcher.engineOf deskService).run
            { route := ⟨"desk", "open"⟩ }
              (deskDispatcher.invocationOf deskService { route := ⟨"desk", "open"⟩ })) false
          (deskDispatcher.welcome deskService { route := ⟨"desk", "open"⟩ }) [] u result ∧
        .ok { outcome := .success .null [], correlationId := some "id" } =
          deskDispatcher.answered "id" result) := by
  -- The request for the open route is answered with a value, so it is not refused.
  have hopen : ¬ ∃ failure, deskDispatcher.Refuses deskService
      { route := ⟨"desk", "open"⟩ } failure := by
    rintro ⟨failure, w, -, -, h⟩
    have hsuccess : ∃ s, deskDispatcher.handle { route := ⟨"desk", "open"⟩ }
        (deskService.withUnits []) =
        .done s (.ok { outcome := .success .null [], correlationId := some "id" }) := ⟨_, rfl⟩
    obtain ⟨s, hs⟩ := hsuccess
    have hsame := (h []).symm.trans hs
    simp at hsame
  exact ⟨(handle_mediated _ _ _).1 rfl, ((handle_mediated _ _ _).2.1 rfl rfl).1,
    ((handle_mediated _ _ _).2.2.1 hopen).2, (handle_mediated _ _ _).2.2.2 _ rfl rfl false [] _⟩

end Dispatcher

end Switchyard
