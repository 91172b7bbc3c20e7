import Switchyard.Proofs.Dispatch.Listened
import Switchyard.Proofs.Dispatch.Trail
import Switchyard.Proofs.Engine.Heedless

/-!
# What failing listeners change

Whatever listeners there are and whichever of their calls fail, a request goes as it goes before
listeners that never fail, and it ends as it ends before none: as long as each failure can be put
into words. The first call whose failure cannot, so that it backfires, ends the handling of the
request with the error that got out of it. So the failure of a listener does change what comes of a
request, although the calls of listeners are meant to see to it that it does not.

Main statements: what failing listeners change (`unheeded_or_raises`), that they do not always leave
requests alone (`not_forall_unheeded`), and that hooks do (`unheeded_of_hooks`).
-/

namespace Switchyard

/-! ## §1 Listeners that never fail -/

/-- The listener that is told the same and never fails. -/
def Listener.silenced {κ : Type} (listener : Listener κ) : Listener κ :=
  { listener with failure := fun _ _ => none }

/-- The same listeners, but that none ever fails. -/
def Listeners.silenced (listeners : Listeners) : Listeners where
  audit := listeners.audit.map Listener.silenced
  metrics := listeners.metrics.map Listener.silenced

/-- Worlds that differ at most in the complaints about listeners. -/
structure World.SameTrail (w w' : World) : Prop where
  surroundings : w.surroundings = w'.surroundings
  trail : w.trail = w'.trail

namespace Listeners

variable {listeners : Listeners} {number : Nat} {call : HookCall} {w : World}

/-- Whether somebody listens to a call. -/
def hears (listeners : Listeners) : HookCall → Bool
  | .audit _ => listeners.audit.isSome
  | .metric _ => listeners.metrics.isSome

/-- A call comes on the trail if somebody listens to it. -/
theorem tell_trail :
    (listeners.tell number call w).1.trail =
      w.trail ++ if listeners.hears call then [(number, call)] else [] := by
  have hanswer : (listeners.answer? w.trail call).isSome = listeners.hears call := by
    cases call <;> simp [answer?, hears]
  unfold tell
  split <;> rename_i h <;> rw [h] at hanswer <;> simp [← hanswer, World.called]

end Listeners

/-- Whether listeners fail makes no difference but for the complaints, unless a call backfires. -/
theorem respects_silenced (listeners : Listeners) :
    Respects World.SameTrail listeners listeners.silenced where
  surroundings h := h.surroundings
  put surroundings h := ⟨rfl, h.trail⟩
  quiet trail call := by
    obtain ⟨number, call⟩ := call
    rcases listeners with ⟨audit, metrics⟩
    cases call with
    | audit call => cases audit <;> rfl
    | metric sample => cases metrics <;> rfl
  tell number call h _ := by
    have hhears : listeners.silenced.hears call = listeners.hears call := by
      cases call <;> simp [Listeners.hears, Listeners.silenced]
    refine ⟨?_, ?_⟩
    · rw [Listeners.tell_surroundings, Listeners.tell_surroundings]
      exact h.surroundings
    · rw [Listeners.tell_trail, Listeners.tell_trail, hhears, h.trail]

/-- The failures of hooks can all be put into words. -/
theorem Hooks.backfire?_listeners (hooks : Hooks) {trail : List (Nat × HookCall)}
    {call : Nat × HookCall} : hooks.listeners.backfire? trail call = none := by
  obtain ⟨number, call⟩ := call
  have htell : (hooks.listeners.tell number call { trail }).2 = none := by
    cases call with
    | audit call => rw [tell_audit]
    | metric sample => rw [tell_metric]
  rwa [Listeners.tell_snd] at htell

/-! ## §2 Requests -/

namespace Activity

variable {σ τ α β : Type} {a : Activity σ α} {x : α} {n : Nat}

/-- The activity ends with a result after so many more turns, whatever they find. -/
def EndsIn (a : Activity σ α) (n : Nat) (x : α) : Prop :=
  ∀ ts, ts.length = n → ∃ s, a.Ends true ts s x

theorem endsIn_done {s : σ} : (done s x).EndsIn 0 x := by
  intro ts hts
  obtain rfl := List.eq_nil_of_length_eq_zero hts
  exact ⟨s, .done s x⟩

theorem EndsIn.later {f : σ → Activity σ α} {s : σ} (h : ∀ t, (f t).EndsIn n x) :
    (later f s).EndsIn (n + 1) x := by
  intro ts hts
  obtain ⟨t, ts, rfl⟩ := List.exists_cons_of_length_eq_add_one hts
  obtain ⟨u, hends⟩ := h t ts (Nat.succ.inj hts)
  exact ⟨u, .resumed hends⟩

theorem EndsIn.map {f : α → β} (h : a.EndsIn n x) : (a.map f).EndsIn n (f x) := by
  intro ts hts
  obtain ⟨s, hends⟩ := h ts hts
  exact ⟨s, ends_map_iff.mpr ⟨x, hends, rfl⟩⟩

theorem EndsIn.within {part : τ → σ} {replace : τ → σ → τ} {t : τ} (h : a.EndsIn n x) :
    (a.within part replace t).EndsIn n x := by
  intro ts hts
  obtain ⟨s, hends⟩ := h (ts.map part) (by rw [List.length_map, hts])
  exact ⟨_, ends_within_iff.mpr ⟨s, hends, rfl⟩⟩

end Activity

/-- What is served is decided by the surroundings. -/
theorem Dispatcher.current_eq {service : Service} {w : World}
    (h : service.world.surroundings = w.surroundings) :
    ({ service with world := w } : Service).current = service.current := by
  unfold Service.current
  rw [h]

namespace Listeners

variable {R : World → World → Prop} {listeners listeners' : Listeners}
  (hR : Respects R listeners listeners') {d : Dispatcher} {number : Nat} {route : Route}
  {id : String} {z w w' : World} {e : Raised} {β : Type}

/-- **An error ends the handling of a request** within two turns, unless it is taken for that of a
time limit. -/
def Raises {σ α : Type} (e : Raised) (a : Activity σ (Except Raised α)) : Prop :=
  e.isTimeout = false → ∃ n ≤ 2, a.EndsIn n (.error e)

/-- The error that got out ends the handling of a request as it leaves a coroutine. -/
def PassesOn (e : Raised) (a : Activity Service (Except Raised Response)) : Prop :=
  e.isTimeout = false → ∃ n ≤ 2, a.EndsIn n (.error e.passedOn)

theorem raises_done {σ α : Type} {s : σ} : Raises (α := α) e (.done s (.error e)) := by
  intro _
  exact ⟨0, Nat.zero_le 2, Activity.endsIn_done⟩

/-- Ending an invocation only adds to the trail. -/
theorem settle_grows {ended : Except Raised Outcome} :
    w.trail <+: (listeners.settle number route id ended w).state.trail := by
  cases ended with
  | error e => exact List.prefix_rfl
  | ok outcome => exact telling_grows fun _ => List.prefix_rfl

theorem timeOut_grows {limit : Value} :
    w.trail <+: (listeners.timeOut number route id limit w).state.trail :=
  telling_grows fun _ => settle_grows

theorem conclude_grows {ended : Except Raised Outcome} :
    w.trail <+: (listeners.conclude d number route id ended w).state.trail := by
  cases ended with
  | error e =>
    rw [conclude]
    split
    · exact timeOut_grows
    · exact List.prefix_rfl
  | ok outcome =>
    rw [conclude]
    exact settle_grows

/-- An error that ended a run ends the handling of the request, if it is not taken for that of a
limit. -/
theorem endsIn_conclude (htimeout : e.isTimeout = false) :
    (listeners.conclude d number route id (.error e) w).EndsIn 0 (.error e) := by
  rw [conclude, htimeout]
  exact Activity.endsIn_done

include hR

theorem settle_alike (h : R w w') (ended : Except Raised Outcome) :
    listeners.Alike R Raises w (listeners.settle number route id ended w)
      (listeners'.settle number route id ended w') := by
  cases ended with
  | error e => exact .done (.of_same rfl) h
  | ok outcome =>
    exact telling_alike hR h (fun _ _ => raises_done) fun _ _ h => .done (.of_same rfl) h

theorem timeOut_alike (h : R w w') (limit : Value) :
    listeners.Alike R Raises w (listeners.timeOut number route id limit w)
      (listeners'.timeOut number route id limit w') :=
  telling_alike hR h (fun _ _ => raises_done) fun _ _ h => settle_alike hR h _

theorem conclude_alike (h : R w w') (ended : Except Raised Outcome) :
    listeners.Alike R Raises w (listeners.conclude d number route id ended w)
      (listeners'.conclude d number route id ended w') := by
  cases ended with
  | error e =>
    rw [conclude, conclude]
    split
    · exact timeOut_alike hR h _
    · exact .done (.of_same rfl) h
  | ok outcome =>
    rw [conclude, conclude]
    exact settle_alike hR h _

variable {table : PipelineTable} {pipeline : Pipeline} {invocation : Invocation}

theorem runWithin_alike (h : R w w') :
    listeners.Alike R Raises w
      (listeners.runWithin d table route pipeline invocation id w)
      (listeners'.runWithin d table route pipeline invocation id w') := by
  unfold runWithin
  cases d.timeout with
  | none =>
    refine (run_alike hR h).bind ?_ ?_
    · intro u u' ended huu'
      exact conclude_alike hR huu' ended
    · intro z e a b hmarks hover
      obtain ⟨s, rfl⟩ := hover
      have hgrows : s.trail <+: (listeners.conclude d invocation.number route id (.error e)
          s).state.trail := conclude_grows
      exact .marked (hmarks.of_some hgrows) fun htimeout =>
        ⟨0, Nat.zero_le 2, endsIn_conclude htimeout⟩
  | some limit =>
    cases hpassed : Dispatcher.hasPassed limit with
    | true =>
      simp only [hpassed, ↓reduceIte]
      exact .later h fun _ _ h₁ => .later h₁ fun _ _ h₂ => .later h₂ fun _ _ h₃ =>
        timeOut_alike hR h₃ limit
    | false =>
      simp only [hpassed, Bool.false_eq_true, ↓reduceIte]
      refine .later h fun u u' huu' => ?_
      -- Within the limit the error with which a run ends is still a result.
      have hmapped : listeners.Alike R (fun e a => a.IsOver (some (.error e))) u
          ((listeners.run table pipeline invocation u).map some)
          ((listeners'.run table pipeline invocation u').map some) := by
        refine (run_alike hR huu').map ?_
        intro e a hover
        obtain ⟨s, rfl⟩ := hover
        exact Activity.isOver_done
      have hlimited : listeners.Alike R (fun e a => a.IsOver (some (.error e))) u
          (((listeners.run table pipeline invocation u).map some).limited fun w => .done w none)
          (((listeners'.run table pipeline invocation u').map some).limited
            fun w => .done w none) := by
        refine hmapped.limited ?_ ?_
        · intro s t hst
          exact .done (.of_same rfl) hst
        · intro e a hover
          obtain ⟨s, rfl⟩ := hover
          exact Activity.isOver_done
      refine hlimited.bind ?_ ?_
      · intro s t ended hst
        cases ended with
        | none => exact timeOut_alike hR hst limit
        | some ended =>
          exact .later hst fun _ _ h₁ => .later h₁ fun _ _ h₂ => conclude_alike hR h₂ ended
      · intro z e a b hmarks hover
        obtain ⟨s, rfl⟩ := hover
        refine .marked hmarks ?_
        intro htimeout
        -- The handler hears of the end of the run two turns later.
        exact ⟨2, Nat.le_refl 2, .later fun _ => .later fun _ => endsIn_conclude htimeout⟩

variable {table : ServedTable} {request : Request}

theorem serve_alike (h : R w w') :
    listeners.Alike R Raises w (listeners.serve d table number request id w)
      (listeners'.serve d table number request id w') := by
  cases hfind : table.pipelines.find? request.route with
  | none =>
    simp only [serve, hfind]
    exact settle_alike hR h _
  | some pipeline =>
    cases hallowed : (table.gate.check request.route request.credentials.resolve).allowed with
    | false =>
      simp only [serve, hfind, hallowed, Bool.not_false, ↓reduceIte]
      exact telling_alike hR h (fun _ _ => raises_done) fun _ _ h => settle_alike hR h _
    | true =>
      simp only [serve, hfind, hallowed, Bool.not_true, Bool.false_eq_true, ↓reduceIte]
      exact runWithin_alike hR h

theorem answer_alike (h : R w w') :
    listeners.Alike R Raises w (listeners.answer d table number request id w)
      (listeners'.answer d table number request id w') :=
  telling_alike hR h (fun _ _ => raises_done) fun _ _ h => serve_alike hR h

/-- **Requests go alike** until a call backfires; then the error that got out is what they end with,
unless it is taken for that of a time limit. -/
theorem handle_alike {service : Service} (h : R service.world w') :
    Activity.AlikeUntil (fun s : Service => s.world.trail) listeners.backfire?
      (fun s t : Service => R s.world t.world) PassesOn service (listeners.handle d request service)
      (listeners'.handle d request { service with world := w' }) := by
  unfold handle
  rw [Dispatcher.current_eq (hR.surroundings h)]
  have hanswer : listeners.Alike R Raises service.world
      (listeners.answer d service.current service.received request (d.idOf service request)
        service.world)
      (listeners'.answer d service.current service.received request (d.idOf service request) w') :=
    answer_alike hR h
  have hmapped : listeners.Alike R (fun e a => e.isTimeout = false → ∃ n ≤ 2,
      a.EndsIn n (.error e.passedOn)) service.world
      ((listeners.answer d service.current service.received request (d.idOf service request)
        service.world).map (·.mapError Raised.passedOn))
      ((listeners'.answer d service.current service.received request (d.idOf service request)
        w').map (·.mapError Raised.passedOn)) := by
    refine hanswer.map ?_
    intro e a hraises htimeout
    obtain ⟨n, hn, hends⟩ := hraises htimeout
    exact ⟨n, hn, hends.map⟩
  -- Handling acts on the world of the service.
  refine hmapped.within ?_ ?_ ?_ ?_ h
  · exact fun _ _ => rfl
  · exact fun _ _ hst => hst
  · exact fun _ _ _ _ _ hst => hst
  · intro e a u hraises htimeout
    obtain ⟨n, hn, hends⟩ := hraises htimeout
    exact ⟨n, hn, hends.within⟩

omit hR

/-- Going on with a request only adds to the trail. -/
theorem serve_grows :
    w.trail <+: (listeners.serve d table number request id w).state.trail := by
  have hsame : World.SameSurroundings w w := rfl
  exact (serve_alike (respects_none listeners) hsame).grows

/-! ## §3 Units of a request -/

/-- **A request invokes a unit** for a step with a configuration, after it has invoked others for
other steps, resumed in the given worlds. -/
inductive Invokes (listeners : Listeners) (d : Dispatcher) (service : Service) (request : Request)
    (off : Bool) : List World → (earlier : List (Step × Value)) → Step → Value → Prop
  | unlimited {pipeline : Pipeline} {w : World} {ts : List World} {earlier : List (Step × Value)}
      {step : Step} {config : Value} :
      Dispatcher.asksFor service request = some pipeline →
      (Dispatcher.decides service request).allowed = true →
      d.timeout = none →
      listeners.tell service.received
        (.audit (.identified (d.idOf service request))) service.world =
        (w, none) →
      listeners.Calls service.current.pipelines pipeline (d.invocationOf service request) off w ts
        earlier step config →
      Invokes listeners d service request off ts earlier step config
  | limited {pipeline : Pipeline} {limit : Value} {w t : World} {ts : List World}
      {earlier : List (Step × Value)} {step : Step} {config : Value} :
      Dispatcher.asksFor service request = some pipeline →
      (Dispatcher.decides service request).allowed = true →
      d.timeout = some limit →
      Dispatcher.hasPassed limit = false →
      listeners.tell service.received
        (.audit (.identified (d.idOf service request))) service.world =
        (w, none) →
      listeners.Calls service.current.pipelines pipeline (d.invocationOf service request) false t ts
        earlier step config →
      Invokes listeners d service request off (t :: ts) earlier step config

variable {service : Service} {off : Bool} {ts ts' : List World} {states : List Service}
  {earlier : List (Step × Value)} {step : Step} {config : Value}

/-- Past the gate, the pipeline of a request is run within the limit. -/
theorem serve_of_allowed (hasks : Dispatcher.asksFor service request = some pipeline)
    (hallowed : (Dispatcher.decides service request).allowed = true) :
    listeners.serve d service.current service.received request (d.idOf service request) w =
      listeners.runWithin d service.current.pipelines request.route pipeline
        (d.invocationOf service request) (d.idOf service request) w := by
  rw [Dispatcher.asksFor] at hasks
  rw [Dispatcher.decides] at hallowed
  simp only [serve, hasks, hallowed, Bool.not_true, Bool.false_eq_true, ↓reduceIte]
  rfl

/-- What is quiet from the start is quiet after the listeners were told that the request came in. -/
theorem serve_quiet
    (hquiet : (listeners.handle d request service).mark? (fun s : Service => s.world.trail)
      listeners.backfire? service states = none) :
    ∃ w, listeners.tell service.received (.audit (.identified (d.idOf service request)))
        service.world = (w, none) ∧
      (listeners.serve d service.current service.received request (d.idOf service request) w).mark?
        World.trail listeners.backfire? w (states.map (·.world)) = none := by
  have hanswer : (listeners.answer d service.current service.received request
      (d.idOf service request) service.world).mark? World.trail listeners.backfire? service.world
        (states.map (·.world)) = none := by
    rw [← Activity.mark?_map (f := (·.mapError Raised.passedOn)), ← hquiet, handle]
    exact (Activity.mark?_within (fun _ _ => rfl)).symm
  have htold :=
    listeners.tell_marks service.received (.audit (.identified (d.idOf service request)))
      service.world
  rw [answer] at hanswer
  cases hback : listeners.backfire? service.world.trail
      (service.received, .audit (.identified (d.idOf service request))) with
  | none =>
    rw [hback] at htold
    rw [telling_cons_of_none hback, telling, Activity.mark?_of_earlier htold serve_grows] at hanswer
    exact ⟨_, Prod.ext rfl (tell_snd.trans hback), hanswer⟩
  | some e =>
    rw [hback] at htold
    rw [telling_cons_of_some hback, Activity.mark?_of_some htold.between] at hanswer
    cases hanswer

/-- A run within a limit has its place in the handling of a request, as long as it does not wait. -/
theorem frame_limited (k : World → Option (Except Raised Outcome) → Activity World β)
    (hk : ∀ s ended, s.trail <+: (k s (some ended)).state.trail) :
    Activity.Frame World.trail false fun a : Activity World (Except Raised Outcome) =>
      ((a.map some).limited fun w => .done w none).bind k where
  paused _ _ := rfl
  waiting hoff := by cases hoff
  grows a := by
    cases a with
    | done s ended => exact hk s ended
    | paused s resume | waiting s callOff => exact List.prefix_rfl

/-- **Until a call backfires**, a request invokes the same units with the same configurations. -/
theorem invokes_iff (hR : Respects R listeners listeners') (h : R service.world w')
    (hts : List.Forall₂ R (states.map (·.world)) ts')
    (hquiet : (listeners.handle d request service).mark? (fun s : Service => s.world.trail)
      listeners.backfire? service states = none) :
    listeners.Invokes d service request off (states.map (·.world)) earlier step config ↔
      listeners'.Invokes d { service with world := w' } request off ts' earlier step config := by
  obtain ⟨u, htell, hserve⟩ := serve_quiet hquiet
  generalize states.map (·.world) = ts at hts hserve
  have hcurrent : ({ service with world := w' } : Service).current = service.current :=
    Dispatcher.current_eq (hR.surroundings h)
  have hasks' : Dispatcher.asksFor { service with world := w' } request =
      Dispatcher.asksFor service request := by
    rw [Dispatcher.asksFor, Dispatcher.asksFor, hcurrent]
  have hdecides' : Dispatcher.decides { service with world := w' } request =
      Dispatcher.decides service request := by
    rw [Dispatcher.decides, Dispatcher.decides, hcurrent]
  -- Both have been told that the request came in, and are in alike worlds.
  obtain ⟨u', htell', huu'⟩ : ∃ u', listeners'.tell service.received
      (.audit (.identified (d.idOf service request))) w' = (u', none) ∧ R u u' := by
    have hu := hR.tell service.received (.audit (.identified (d.idOf service request))) h
      (by rw [← tell_snd, htell])
    rw [htell] at hu
    exact ⟨_, Prod.ext rfl (tell_snd.trans (hR.quiet _ _)), hu⟩
  have hunlimited : ∀ {pipeline : Pipeline}, Dispatcher.asksFor service request = some pipeline →
      (Dispatcher.decides service request).allowed = true → d.timeout = none →
      (listeners.Calls service.current.pipelines pipeline (d.invocationOf service request) off u ts
          earlier step config ↔
        listeners'.Calls service.current.pipelines pipeline (d.invocationOf service request) off u'
          ts' earlier step config) := by
    intro pipeline hasks hallowed hlimit
    rw [serve_of_allowed hasks hallowed, runWithin] at hserve
    simp only [hlimit] at hserve
    exact calls_iff hR (Activity.Frame.id.bind fun _ _ => conclude_grows) huu' hts hserve
  have hlimited : ∀ {pipeline : Pipeline} {limit : Value} {t t' : World} {rest rest' : List World},
      Dispatcher.asksFor service request = some pipeline →
      (Dispatcher.decides service request).allowed = true → d.timeout = some limit →
      Dispatcher.hasPassed limit = false → ts = t :: rest → ts' = t' :: rest' →
      (listeners.Calls service.current.pipelines pipeline (d.invocationOf service request) false t
          rest earlier step config ↔
        listeners'.Calls service.current.pipelines pipeline
          (d.invocationOf service request) false t' rest' earlier step config) := by
    rintro pipeline limit t t' rest rest' hasks hallowed hlimit hpassed rfl rfl
    rw [serve_of_allowed hasks hallowed, runWithin] at hserve
    simp only [hlimit, hpassed, Bool.false_eq_true, ↓reduceIte] at hserve
    cases hts with
    | cons ht hrest =>
      refine calls_iff hR (frame_limited _ ?_) ht hrest (Activity.mark?_cons_eq_none rfl hserve)
      exact fun _ _ => List.prefix_rfl
  constructor
  · intro hinvokes
    cases hinvokes with
    | unlimited hasks hallowed hlimit htold hcalls =>
      obtain ⟨rfl, -⟩ := Prod.mk.inj (htold.symm.trans htell)
      refine .unlimited (hasks'.trans hasks) (hdecides' ▸ hallowed) hlimit htell' ?_
      rw [hcurrent]
      exact (hunlimited hasks hallowed hlimit).mp hcalls
    | limited hasks hallowed hlimit hpassed htold hcalls =>
      obtain ⟨t', rest', -, -, rfl⟩ := List.forall₂_cons_left_iff.mp hts
      refine .limited (hasks'.trans hasks) (hdecides' ▸ hallowed) hlimit hpassed htell' ?_
      rw [hcurrent]
      exact (hlimited hasks hallowed hlimit hpassed rfl rfl).mp hcalls
  · intro hinvokes
    cases hinvokes with
    | unlimited hasks hallowed hlimit htold hcalls =>
      rw [hasks'] at hasks
      rw [hdecides'] at hallowed
      obtain ⟨rfl, -⟩ := Prod.mk.inj (htold.symm.trans htell')
      rw [hcurrent] at hcalls
      exact .unlimited hasks hallowed hlimit htell ((hunlimited hasks hallowed hlimit).mpr hcalls)
    | limited hasks hallowed hlimit hpassed htold hcalls =>
      rw [hasks'] at hasks
      rw [hdecides'] at hallowed
      obtain ⟨t, rest, -, -, rfl⟩ := List.forall₂_cons_right_iff.mp hts
      rw [hcurrent] at hcalls
      exact .limited hasks hallowed hlimit hpassed htell
        ((hlimited hasks hallowed hlimit hpassed rfl rfl).mpr hcalls)

/-! ## §4 What failing listeners change -/

/-- **The failures of the listeners are not heeded** by a request that is resumed in the given
states. Let it also be handled before listeners that are told the same and never fail, in worlds
that differ at most in the complaints: it ends with the same result, invokes the same units with the
same configurations in the same order, and makes the same calls of the listeners. And it ends with
the same result before no listeners, in worlds that have the same surroundings. -/
structure Unheeded (listeners : Listeners) (d : Dispatcher) (service : Service) (request : Request)
    (off : Bool) (states : List Service) : Prop where
  result : ∀ w' states', service.world.SameTrail w' →
    List.Forall₂ (fun s t : Service => s.world.SameTrail t.world) states states' →
    ∀ r, (∃ s, (listeners.handle d request service).Ends off states s r) ↔
      ∃ s, (listeners.silenced.handle d request { service with world := w' }).Ends off states' s r
  units : ∀ w' states', service.world.SameTrail w' →
    List.Forall₂ (fun s t : Service => s.world.SameTrail t.world) states states' →
    ∀ earlier step config,
      listeners.Invokes d service request off (states.map (·.world)) earlier step config ↔
        listeners.silenced.Invokes d { service with world := w' } request off
          (states'.map (·.world)) earlier step config
  calls : ∀ w' states', service.world.SameTrail w' →
    List.Forall₂ (fun s t : Service => s.world.SameTrail t.world) states states' →
    ∀ calls, (listeners.handle d request service).Adds (·.world.trail) service states calls ↔
      (listeners.silenced.handle d request { service with world := w' }).Adds (·.world.trail)
        { service with world := w' } states' calls
  without : ∀ w' states', service.world.SameSurroundings w' →
    List.Forall₂ (fun s t : Service => s.world.SameSurroundings t.world) states states' →
    ∀ r, (∃ s, (listeners.handle d request service).Ends off states s r) ↔
      ∃ s, (({} : Listeners).handle d request { service with world := w' }).Ends off states' s r

/-- The error that gets out of the first call that backfires while a request is handled. -/
def backfires (listeners : Listeners) (d : Dispatcher) (service : Service) (request : Request)
    (states : List Service) : Option Raised :=
  (listeners.handle d request service).mark? (·.world.trail) listeners.backfire? service states

/-- Failures that can all be put into words are not heeded. -/
theorem unheeded_of_quiet (h : listeners.backfires d service request states = none) :
    listeners.Unheeded d service request off states where
  result w' states' hw hstates r :=
    (handle_alike (respects_silenced listeners) hw).ends_iff hstates h
  units w' states' hw hstates earlier step config := by
    apply invokes_iff (respects_silenced listeners) hw _ h
    rw [List.forall₂_map_left_iff, List.forall₂_map_right_iff]
    exact hstates
  calls w' states' hw hstates calls :=
    (handle_alike (respects_silenced listeners) hw).adds_iff (fun s t hst => hst.trail) hw.trail
      hstates h
  without w' states' hw hstates r :=
    (handle_alike (respects_none listeners) hw).ends_iff hstates h

/-- **Hooks change nothing**: their failures can all be put into words. -/
theorem unheeded_of_hooks : d.hooks.listeners.Unheeded d service request off states := by
  apply unheeded_of_quiet
  refine Activity.mark?_eq_none ?_
  rintro before ⟨number, call⟩
  exact d.hooks.backfire?_listeners

/-- **What failing listeners change**: nothing, as long as no call backfires. Once one does, the
handling of the request ends with the error that got out, after two more turns at most, unless that
error is taken for the one of a time limit. -/
theorem unheeded_or_raises (listeners : Listeners) (d : Dispatcher) (service : Service)
    (request : Request) (states : List Service) :
    (listeners.backfires d service request states = none →
      ∀ off, listeners.Unheeded d service request off states) ∧
    ∀ e, listeners.backfires d service request states = some e → e.isTimeout = false →
      ∃ before after, states = before ++ after ∧ ∃ n ≤ 2, ∀ more, more.length = n →
        ∃ s, (listeners.handle d request service).Ends true (before ++ more) s
          (.error e.passedOn) := by
  refine ⟨fun hquiet off => unheeded_of_quiet hquiet, ?_⟩
  intro e hbackfires htimeout
  -- It does not matter which listeners that never fail the request is compared with.
  have hsame : World.SameSurroundings service.world service.world := rfl
  have hstates : List.Forall₂ (fun s t : Service => s.world.SameSurroundings t.world) states
      states := List.forall₂_same.mpr fun _ _ => rfl
  obtain ⟨before, after, rfl, hturns, hpasses⟩ :=
    (handle_alike (d := d) (respects_none listeners) hsame).exists_of_mark hstates hbackfires
  obtain ⟨n, hn, hends⟩ := hpasses htimeout
  refine ⟨before, after, rfl, n, hn, ?_⟩
  intro more hmore
  obtain ⟨s, hs⟩ := hends more hmore
  exact ⟨s, Activity.ends_of_after hturns hs⟩

/-- Listeners for the audit trail that fail at each call, with such words as can be had. -/
def failing (words : Except Raised String) : Listeners where
  audit := some { name := fun _ _ => .ok "audit", failure := fun _ _ => some words }

/-- The error that gets out of them if the words cannot be had. -/
def speechless : Raised := .broken "RuntimeError" "no words"

/-- What failing listeners change about a request whose second step fails: nothing if their failures
can be put into words, and else it ends with an error. -/
theorem unheeded_or_raises_halfway :
    (failing (.ok "no disk")).Unheeded Dispatcher.clumsyDispatcher Dispatcher.halfwayService
      { route := ⟨"desk", "halfway"⟩ } false [] ∧
    ∃ states s, ((failing (.error speechless)).handle Dispatcher.clumsyDispatcher
      { route := ⟨"desk", "halfway"⟩ } Dispatcher.halfwayService).Ends true states s
        (.error speechless) := by
  obtain ⟨hunheeded, -⟩ := unheeded_or_raises (failing (.ok "no disk")) Dispatcher.clumsyDispatcher
    Dispatcher.halfwayService { route := ⟨"desk", "halfway"⟩ } []
  obtain ⟨-, hraises⟩ := unheeded_or_raises (failing (.error speechless))
    Dispatcher.clumsyDispatcher Dispatcher.halfwayService { route := ⟨"desk", "halfway"⟩ } []
  obtain ⟨before, _, _, n, _, hends⟩ := hraises speechless rfl rfl
  obtain ⟨s, hs⟩ := hends (List.replicate n Dispatcher.halfwayService) List.length_replicate
  exact ⟨hunheeded rfl false, _, s, hs⟩

/-- Failing listeners do not always leave requests alone. -/
theorem not_forall_unheeded :
    ¬ ∀ (listeners : Listeners) (d : Dispatcher) (service : Service) (request : Request)
      (off : Bool) (states : List Service), listeners.Unheeded d service request off states := by
  intro hunheeded
  have hresult := (hunheeded (failing (.error speechless)) Dispatcher.clumsyDispatcher
    Dispatcher.halfwayService { route := ⟨"desk", "halfway"⟩ } false []).result
      Dispatcher.halfwayService.world [] ⟨rfl, rfl⟩ .nil (.ok Dispatcher.halfwayResponse)
  -- Before listeners that never fail the request is answered.
  obtain ⟨t, ht⟩ : ∃ t, (failing (.error speechless)).silenced.handle Dispatcher.clumsyDispatcher
      { route := ⟨"desk", "halfway"⟩ } Dispatcher.halfwayService =
        .done t (.ok Dispatcher.halfwayResponse) := ⟨_, rfl⟩
  obtain ⟨s, hs⟩ : ∃ s, (failing (.error speechless)).handle Dispatcher.clumsyDispatcher
      { route := ⟨"desk", "halfway"⟩ } Dispatcher.halfwayService =
        .done s (.error speechless) := ⟨_, rfl⟩
  have hanswered : ∃ s, ((failing (.error speechless)).handle Dispatcher.clumsyDispatcher
      { route := ⟨"desk", "halfway"⟩ } Dispatcher.halfwayService).Ends false [] s
        (.ok Dispatcher.halfwayResponse) := by
    refine hresult.mpr ⟨t, ?_⟩
    show ((failing (.error speechless)).silenced.handle Dispatcher.clumsyDispatcher
      { route := ⟨"desk", "halfway"⟩ } Dispatcher.halfwayService).Ends false [] t _
    rw [ht]
    exact .done _ _
  obtain ⟨u, hu⟩ := hanswered
  rw [hs] at hu
  cases hu

end Listeners

end Switchyard
