import Switchyard.Listening
import Switchyard.Proofs.Engine.Frame
import Switchyard.Proofs.Failure.Telling

/-!
# Hooks as listeners

A dispatcher handles a request before its hooks as requests are handled before listeners whose
failures can all be put into words. Nothing that gets out of a run on its own counts as the error of
a time limit, or becomes another error when it leaves a coroutine.

Main statement: `handle_listeners`.
-/

namespace Switchyard

/-! ## §1 What activities end with -/

namespace Activity

variable {σ τ α β : Type} {P : α → Prop} {Q : β → Prop} {a : Activity σ α}

/-- Whatever the activity ends with has a property. -/
def Results (P : α → Prop) : Activity σ α → Prop
  | .done _ x => P x
  | .paused _ resume => ∀ t, (resume t).Results P
  | .waiting _ callOff => ∀ t, (callOff t).Results P

theorem Results.any (a : Activity σ α) : a.Results fun _ => True := by
  induction a with
  | done s x => trivial
  | paused s resume ih | waiting s callOff ih => exact ih

theorem Results.imp {P' : α → Prop} (h : a.Results P) (hP : ∀ x, P x → P' x) : a.Results P' := by
  induction a with
  | done s x => exact hP x h
  | paused s resume ih | waiting s callOff ih => exact fun t => ih t (h t)

theorem Results.bind {next : σ → α → Activity σ β} (h : a.Results P)
    (hnext : ∀ s x, P x → (next s x).Results Q) : (a.bind next).Results Q := by
  induction a with
  | done s x => exact hnext s x h
  | paused s resume ih | waiting s callOff ih => exact fun t => ih t (h t)

theorem Results.map {f : α → β} (h : a.Results P) (hf : ∀ x, P x → Q (f x)) :
    (a.map f).Results Q := by
  induction a with
  | done s x => exact hf x h
  | paused s resume ih | waiting s callOff ih => exact fun t => ih t (h t)

theorem Results.limited {expired : σ → Activity σ α} (h : a.Results P)
    (hexpired : ∀ t, (expired t).Results P) : (a.limited expired).Results P := by
  induction a with
  | done s x => exact h
  | paused s resume ih => exact fun t => ih t (h t)
  | waiting s callOff _ => exact hexpired

/-- What goes on alike from all results goes alike. -/
theorem Results.bind_congr {f g : σ → α → Activity σ β} (h : a.Results P)
    (hnext : ∀ s x, P x → f s x = g s x) : a.bind f = a.bind g := by
  induction a with
  | done s x => exact hnext s x h
  | paused s resume ih =>
    show Activity.paused s _ = Activity.paused s _
    congr 1
    funext t
    exact ih t (h t)
  | waiting s callOff ih =>
    show Activity.waiting s _ = Activity.waiting s _
    congr 1
    funext t
    exact ih t (h t)

/-- Changing results that stay the same changes nothing. -/
theorem Results.map_eq_self {f : α → α} (h : a.Results fun x => f x = x) : a.map f = a := by
  induction a with
  | done s x => exact congrArg (Activity.done s) h
  | paused s resume ih =>
    show Activity.paused s _ = Activity.paused s _
    congr 1
    funext t
    exact ih t (h t)
  | waiting s callOff ih =>
    show Activity.waiting s _ = Activity.waiting s _
    congr 1
    funext t
    exact ih t (h t)

end Activity

/-! ## §2 What gets out of a run -/

/-- An error that is not that of a time limit, and is passed on as it is. -/
structure Raised.Through (e : Raised) : Prop where
  timeout : e.isTimeout = false
  passedOn : e.passedOn = e

namespace Engine

variable {engine : Engine} {invocation : Invocation} {pipeline : Pipeline} {index number : Nat}
  {step : Step} {steps : List Step} {scope : Scope} {w : World}

/-- What escapes a step goes through. -/
def EscapesThrough (ended : StepEnd) : Prop := ∀ e, ended = .escaped e → e.Through

theorem endWithError_results (e : Raised) :
    (engine.endWithError number step index e w).Results EscapesThrough := by
  rw [endWithError]
  cases hfailure : failureAt step index e with
  | ok failure => exact fun _ h => by cases h
  | error e' =>
    rintro _ ⟨⟩
    rcases failureAt_error hfailure with rfl | ⟨issues, rfl⟩
    · exact ⟨rfl, rfl⟩
    · exact ⟨rfl, rfl⟩

theorem endWithOutput_results (output : Value) :
    (engine.endWithOutput number step scope output w).Results EscapesThrough := by
  rw [endWithOutput]
  cases hrecord : scope.record step.name output w.store with
  | ok recorded => exact fun _ h => by cases h
  | error e' =>
    rintro _ ⟨⟩
    -- Only that the step has an output already can go wrong.
    simp only [Scope.record, Outputs.record] at hrecord
    split at hrecord
    · cases hrecord
      exact ⟨rfl, rfl⟩
    · cases hrecord

theorem endWith_results (answer : Except Raised Value) :
    (engine.endWith number step index scope w answer).Results EscapesThrough := by
  cases answer with
  | error e => exact endWithError_results e
  | ok output => exact endWithOutput_results output

theorem runStep_results :
    (engine.runStep invocation step index scope w).Results EscapesThrough := by
  cases hresolve : Binding.resolveRecord scope.context step.bindings w.store with
  | error problem =>
    rw [runStep_unresolved hresolve]
    exact endWithError_results problem.raised
  | ok resolved =>
    obtain ⟨config, σ⟩ := resolved
    rw [runStep_resolved hresolve]
    exact (Activity.Results.any _).bind fun _ answer _ => endWith_results answer

/-- **What gets out of a run** goes through. -/
theorem runSteps_results :
    (engine.runSteps invocation pipeline index steps scope w).Results
      fun ended => ∀ e, ended = .error e → e.Through := by
  induction steps generalizing index scope w with
  | nil =>
    intro e he
    unfold answerOf at he
    split at he
    · rename_i name _
      -- Only that the designated output is missing can go wrong.
      cases hfind : scope.outputs.find? name with
      | some v =>
        rw [Outputs.get, hfind] at he
        cases he
      | none =>
        rw [Outputs.get, hfind] at he
        obtain rfl := Except.error.inj he
        exact ⟨rfl, rfl⟩
    · split at he <;> cases he
  | cons step rest ih =>
    rw [runSteps]
    split_ifs
    · exact fun _ h => by cases h
    · refine runStep_results.bind ?_
      intro u ended hended
      cases ended with
      | recorded scope' => exact ih
      | failed failure => exact fun _ h => by cases h
      | escaped e =>
        rintro _ ⟨⟩
        exact hended e rfl

theorem run_results :
    (engine.run pipeline invocation w).Results fun ended => ∀ e, ended = .error e → e.Through := by
  unfold run
  exact runSteps_results

/-- What gets out of a run within a limit goes through as well. -/
theorem limited_results :
    (((engine.run pipeline invocation w).map some).limited fun w => .done w none).Results
      fun ended => ∀ e, ended = some (.error e) → e.Through := by
  refine Activity.Results.limited (run_results.map ?_) ?_
  · intro ended hthrough e he
    exact hthrough e (Option.some.inj he)
  · intro t e he
    cases he

end Engine

namespace Dispatcher

variable {d : Dispatcher} {engine : Engine} {pipeline : Pipeline} {invocation : Invocation}
  {number : Nat} {route : Route} {id : String} {table : ServedTable} {request : Request} {w : World}

/-- What gets out of a request goes through. -/
def RaisesThrough (r : Except Raised Response) : Prop := ∀ e, r = .error e → e.Through

theorem settle_results {ended : Except Raised Outcome}
    (hthrough : ∀ e, ended = .error e → e.Through) :
    (d.settle number route id ended w).Results RaisesThrough := by
  cases ended with
  | error e =>
    rintro _ ⟨⟩
    exact hthrough e rfl
  | ok outcome =>
    intro e he
    cases he

theorem timeOut_results {limit : Value} :
    (d.timeOut number route id limit w).Results RaisesThrough := by
  rw [timeOut]
  refine settle_results ?_
  intro e he
  cases he

theorem runWithin_results :
    (d.runWithin engine route pipeline invocation id w).Results RaisesThrough := by
  unfold runWithin
  cases d.timeout with
  | none => exact Engine.run_results.bind fun _ _ hthrough => settle_results hthrough
  | some limit =>
    cases hpassed : hasPassed limit with
    | true =>
      simp only [hpassed, ↓reduceIte]
      exact fun _ _ _ => timeOut_results
    | false =>
      simp only [hpassed, Bool.false_eq_true, ↓reduceIte]
      intro t
      refine Engine.limited_results.bind ?_
      intro u ended hthrough
      cases ended with
      | none => exact timeOut_results
      | some ended =>
        exact fun _ _ => settle_results fun e he => hthrough e (congrArg some he)

/-- **What gets out of a request** goes through. -/
theorem answer_results : (d.answer table number request id w).Results RaisesThrough := by
  cases hfind : table.pipelines.find? request.route with
  | none =>
    simp only [answer, hfind]
    exact settle_results fun _ he => by cases he
  | some pipeline =>
    cases hallowed : (table.gate.check request.route request.credentials.resolve).allowed with
    | false =>
      simp only [answer, hfind, hallowed, Bool.not_false, ↓reduceIte]
      exact settle_results fun _ he => by cases he
    | true =>
      simp only [answer, hfind, hallowed, Bool.not_true, Bool.false_eq_true, ↓reduceIte]
      exact runWithin_results

end Dispatcher

/-! ## §3 Hooks as listeners -/

namespace Hooks

variable {α : Type} {hooks : Hooks} {table : PipelineTable} {pipeline : Pipeline}
  {invocation : Invocation} {index number : Nat} {step : Step} {steps : List Step} {scope : Scope}
  {w : World} {d : Dispatcher} {route : Route} {id : String} {calls : List HookCall}
  {escape : Raised → α} {next : World → Activity World α}

/-- A hook leaves what it leaves as a listener. -/
theorem listener_answer {κ : Type} (hook : Hook κ) (before : List κ) (call : κ) :
    hook.listener.answer before call =
      .ok ((hook.failure before call).map (Hook.complaint (hook.name call))) := by
  simp only [Listener.answer, Hook.listener]
  cases hook.failure before call <;> rfl

theorem tell_audit (call : AuditCall) :
    hooks.listeners.tell number (.audit call) w = (w.audit hooks number call, none) := by
  unfold Listeners.tell World.audit
  cases haudit : hooks.audit with
  | none => simp [Listeners.answer?, listeners, haudit]
  | some hook =>
    simp [Listeners.answer?, listeners, haudit, listener_answer, World.audits]

theorem tell_metric (sample : Sample) :
    hooks.listeners.tell number (.metric sample) w = (w.measure hooks number sample, none) := by
  unfold Listeners.tell World.measure
  cases hmetrics : hooks.metrics with
  | none => simp [Listeners.answer?, listeners, hmetrics]
  | some hook =>
    simp [Listeners.answer?, listeners, hmetrics, listener_answer, World.samples]

@[simp] theorem telling_nil : hooks.listeners.telling number [] escape next w = next w := rfl

@[simp] theorem telling_audit (call : AuditCall) :
    hooks.listeners.telling number (.audit call :: calls) escape next w =
      hooks.listeners.telling number calls escape next (w.audit hooks number call) := by
  rw [Listeners.telling, tell_audit]

@[simp] theorem telling_metric (sample : Sample) :
    hooks.listeners.telling number (.metric sample :: calls) escape next w =
      hooks.listeners.telling number calls escape next (w.measure hooks number sample) := by
  rw [Listeners.telling, tell_metric]

/-! ### Runs -/

theorem endWithError_listeners (e : Raised) :
    hooks.listeners.endWithError number step index e w =
      (Engine.mk table hooks).endWithError number step index e w := by
  rw [Listeners.endWithError, Engine.endWithError]
  cases Engine.failureAt step index e with
  | ok failure =>
    simp only [telling_audit, telling_metric, telling_nil]
    rfl
  | error e' => rfl

theorem endWithOutput_listeners (output : Value) :
    hooks.listeners.endWithOutput number step scope output w =
      (Engine.mk table hooks).endWithOutput number step scope output w := by
  rw [Listeners.endWithOutput, Engine.endWithOutput]
  cases scope.record step.name output w.store with
  | ok recorded =>
    simp only [telling_audit, telling_metric, telling_nil]
    rfl
  | error e' => rfl

theorem endWith_listeners (answer : Except Raised Value) :
    hooks.listeners.endWith number step index scope w answer =
      (Engine.mk table hooks).endWith number step index scope w answer := by
  cases answer with
  | error e => exact endWithError_listeners e
  | ok output => exact endWithOutput_listeners output

theorem runStep_listeners :
    hooks.listeners.runStep table invocation step index scope w =
      (Engine.mk table hooks).runStep invocation step index scope w := by
  rw [Listeners.runStep, telling_audit, telling_nil, Listeners.work]
  cases hresolve : Binding.resolveRecord scope.context step.bindings w.store with
  | error problem =>
    rw [Engine.runStep_unresolved hresolve, World.audit_store, hresolve]
    exact endWithError_listeners problem.raised
  | ok resolved =>
    obtain ⟨config, σ⟩ := resolved
    rw [Engine.runStep_resolved hresolve, World.audit_store, hresolve]
    exact (Activity.Results.any _).bind_congr fun _ answer _ => endWith_listeners answer

theorem runSteps_listeners :
    hooks.listeners.runSteps table invocation pipeline index steps scope w =
      (Engine.mk table hooks).runSteps invocation pipeline index steps scope w := by
  induction steps generalizing index scope w with
  | nil => rfl
  | cons step rest ih =>
    rw [Listeners.runSteps, Engine.runSteps, runStep_listeners]
    split_ifs
    · rfl
    · refine (Activity.Results.any _).bind_congr ?_
      intro u ended _
      cases ended with
      | recorded scope' => exact ih
      | failed failure => rfl
      | escaped e => rfl

/-! ### Requests -/

theorem settle_listeners (ended : Except Raised Outcome) :
    d.hooks.listeners.settle number route id ended w = d.settle number route id ended w := by
  cases ended with
  | error e => rfl
  | ok outcome =>
    rw [Listeners.settle, Dispatcher.endCalls, Dispatcher.endSamples, List.map_cons, List.map_cons,
      List.map_nil, telling_metric, telling_metric, telling_nil]
    rfl

theorem timeOut_listeners (limit : Value) :
    d.hooks.listeners.timeOut number route id limit w = d.timeOut number route id limit w := by
  rw [Listeners.timeOut, telling_audit, telling_nil, settle_listeners]
  rfl

theorem conclude_listeners {ended : Except Raised Outcome}
    (hthrough : ∀ e, ended = .error e → e.Through) :
    d.hooks.listeners.conclude d number route id ended w = d.settle number route id ended w := by
  cases ended with
  | error e =>
    rw [Listeners.conclude, (hthrough e rfl).timeout]
    rfl
  | ok outcome =>
    rw [Listeners.conclude]
    exact settle_listeners _

theorem runWithin_listeners :
    d.hooks.listeners.runWithin d table route pipeline invocation id w =
      d.runWithin ⟨table, d.hooks⟩ route pipeline invocation id w := by
  have hrun : ∀ w, d.hooks.listeners.run table pipeline invocation w =
      (Engine.mk table d.hooks).run pipeline invocation w := fun _ => runSteps_listeners
  unfold Listeners.runWithin Dispatcher.runWithin
  cases d.timeout with
  | none =>
    simp only [hrun]
    exact Engine.run_results.bind_congr fun _ _ hthrough => conclude_listeners hthrough
  | some limit =>
    have htimeOut : d.hooks.listeners.timeOut invocation.number route id limit =
        d.timeOut invocation.number route id limit := by
      funext w
      exact timeOut_listeners limit
    simp only [hrun, htimeOut]
    split
    · rfl
    · unfold Activity.later
      congr 1
      funext t
      refine Engine.limited_results.bind_congr ?_
      intro u ended hthrough
      cases ended with
      | none => rfl
      | some ended =>
        have hconclude : d.hooks.listeners.conclude d invocation.number route id ended =
            d.settle invocation.number route id ended := by
          funext w
          exact conclude_listeners fun e he => hthrough e (congrArg some he)
        simp only [hconclude]

variable {request : Request} {service : Service} {served : ServedTable}

theorem answer_listeners :
    d.hooks.listeners.answer d served number request id w =
      d.answer served number request id w := by
  rw [Listeners.answer, telling_audit, telling_nil]
  cases hfind : served.pipelines.find? request.route with
  | none =>
    simp only [Listeners.serve, Dispatcher.answer, hfind]
    exact settle_listeners _
  | some pipeline =>
    cases hallowed : (served.gate.check request.route request.credentials.resolve).allowed with
    | false =>
      simp only [Listeners.serve, Dispatcher.answer, hfind, hallowed, Bool.not_false, ↓reduceIte,
        telling_audit, telling_metric, telling_nil]
      exact settle_listeners _
    | true =>
      simp only [Listeners.serve, Dispatcher.answer, hfind, hallowed, Bool.not_true,
        Bool.false_eq_true, ↓reduceIte]
      exact runWithin_listeners

/-- **Hooks as listeners**: a dispatcher handles a request before its hooks as it is handled before
listeners whose failures can all be put into words. -/
theorem handle_listeners :
    d.hooks.listeners.handle d request service = d.handle request service := by
  -- What gets out is passed on as it is.
  have hsame : ((d.answer service.current service.received request (d.idOf service request)
      service.world).map (·.mapError Raised.passedOn)) = d.answer service.current service.received
        request (d.idOf service request) service.world := by
    refine Activity.Results.map_eq_self (Dispatcher.answer_results.imp ?_)
    intro r hthrough
    cases r with
    | ok response => rfl
    | error e => exact congrArg Except.error (hthrough e rfl).passedOn
  rw [Listeners.handle, Dispatcher.handle, answer_listeners]
  simp only [hsame]

end Hooks

end Switchyard
