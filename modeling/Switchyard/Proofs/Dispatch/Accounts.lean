import Switchyard.Metrics
import Switchyard.Proofs.Activity.Visits
import Switchyard.Proofs.Dispatch.Isolation
import Switchyard.Proofs.Dispatch.Story

/-!
# What metrics account for

Whatever requests come in and in whatever order they go on, once they all are answered the samples
that a collector has been told add up: each request counts once, under the outcome that its caller
was told, and denials, failing steps and completed steps count as often as there were any.

Main statement: `metrics_account_for_traffic`.
-/

namespace Switchyard

/-! ## §1 Totals -/

namespace Metrics

theorem foldlM_plus_of_ones {values : List Value} (h : ∀ v ∈ values, v = .int 1) (n : Nat) :
    values.foldlM plus (.int n) = .ok (.int (n + values.length : Nat)) := by
  induction values generalizing n with
  | nil => rfl
  | cons v rest ih =>
    obtain ⟨rfl, hrest⟩ := List.forall_mem_cons.mp h
    have hplus : plus (.int n) (.int 1) = .ok (.int (n + 1 : Nat)) := rfl
    rw [List.foldlM_cons, hplus]
    show rest.foldlM plus (.int (n + 1 : Nat)) = _
    rw [ih hrest (n + 1), List.length_cons, Nat.add_assoc, Nat.add_comm 1]

/-- What a collector keeps that was told samples one after another. -/
theorem foldl_add {metrics : Metrics} {samples : List Sample} :
    samples.foldl add metrics = ⟨metrics.samples ++ samples⟩ := by
  induction samples generalizing metrics with
  | nil => simp
  | cons sample rest ih => rw [List.foldl_cons, ih, add, List.append_assoc, List.singleton_append]

/-- **The total of a counter** that is told a one each time is the number of times, as far as
the tags are those. -/
theorem total_eq_countP {samples : List Sample} {name : String} {tags : Entries}
    (h : ∀ sample ∈ samples, sample.name = name → sample.value = some (.int 1)) :
    (Metrics.mk samples).total name tags =
      .ok (.int (samples.countP fun sample =>
        sample.name == name && hasTags tags sample : Nat)) := by
  have hones : ∀ v ∈ (((Metrics.mk samples).entries name).filter (hasTags tags)).map measured,
      v = .int 1 := by
    intro v hv
    obtain ⟨sample, hsample, rfl⟩ := List.mem_map.mp hv
    obtain ⟨hmem, hname⟩ := List.mem_filter.mp (List.mem_of_mem_filter hsample)
    rw [measured, h sample hmem (beq_iff_eq.mp hname), Option.getD_some]
  have hsum := foldlM_plus_of_ones hones 0
  rw [Nat.zero_add, List.length_map, entries, List.filter_filter, ← List.countP_eq_length_filter]
    at hsum
  rw [total, sum, entries, List.filter_filter]
  simpa [Bool.and_comm] using hsum

end Metrics

/-- What adds one for each thing of a sort counts the things of that sort. -/
theorem countP_flatMap_of_one {α β : Type} {xs : List α} {f : α → List β} {p : β → Bool}
    {q : α → Bool} (h : ∀ x ∈ xs, (f x).countP p = if q x then 1 else 0) :
    (xs.flatMap f).countP p = xs.countP q := by
  induction xs with
  | nil => rfl
  | cons x rest ih =>
    obtain ⟨hx, hrest⟩ := List.forall_mem_cons.mp h
    rw [List.flatMap_cons, List.countP_append, hx, ih hrest, List.countP_cons, Nat.add_comm]

/-! ## §2 Samples of a story -/

/-- The samples for the step that a run stops at. -/
def Halt.samples : Halt → List Sample
  | .failed step failure => [step.failureSample failure]
  | .through _ _ | .calledOff _ | .waits _ => []

namespace Story

/-- The steps that the run of a story completed. -/
def completed : Story → List Step
  | .ran completed _ => completed
  | .unserved | .denied | .late => []

/-- The kind that a step failed with, if one did. -/
def failedWith? : Story → Option FailureKind
  | .ran _ (.failed _ failure) => some failure.kind
  | .ran _ (.through _ _) | .ran _ (.calledOff _) | .ran _ (.waits _) | .unserved | .denied
  | .late => none

def isDenied : Story → Bool
  | .denied => true
  | .unserved | .ran _ _ | .late => false

/-- The samples of a story but for its end. -/
def ownSamples (route : Route) : Story → List Sample
  | .denied => [Dispatcher.denialSample route]
  | .ran completed halt => completed.map Step.durationSample ++ halt.samples
  | .unserved | .late => []

variable {d : Dispatcher} {service : Service} {request : Request} {story : Story}

theorem samples_completedCalls {index : Nat} {steps : List Step} :
    (Engine.completedCalls index steps).filterMap HookCall.sample? =
      steps.map Step.durationSample := by
  induction steps generalizing index with
  | nil => rfl
  | cons step rest ih =>
    rw [List.map_cons, ← ih]
    rfl

/-- **The samples of a story.** -/
theorem samples_calls :
    (story.calls d service request).filterMap HookCall.sample? =
      story.ownSamples request.route ++
        Dispatcher.endSamples request.route (story.outcome d request) := by
  have hmiddle : (story.middle d service request).filterMap HookCall.sample? =
      story.ownSamples request.route := by
    cases story with
    | unserved | denied | late => rfl
    | ran completed halt =>
      cases halt <;>
        simp [middle, ownSamples, isLate, Engine.runCalls, samples_completedCalls,
          Halt.calls, Halt.samples, HookCall.sample?, List.filterMap_cons]
  have hend : (Dispatcher.endCalls request.route (story.outcome d request)).filterMap
      HookCall.sample? = _ :=
    (List.filterMap_map ..).trans List.filterMap_some
  rw [calls, List.cons_append, List.filterMap_cons, List.filterMap_append, hmiddle, hend]
  rfl

/-! ## §3 Counts of a story -/

/-- The names of the samples of a story but for its end. -/
theorem name_of_mem_ownSamples {route : Route} {sample : Sample}
    (h : sample ∈ story.ownSamples route) : sample.name = "step_duration_seconds" ∨
      sample.value = some (.int 1) ∧
        (sample.name = "step_failures_total" ∨ sample.name = "denials_total") := by
  cases story with
  | unserved | late => cases h
  | denied =>
    obtain rfl := List.mem_singleton.mp h
    exact .inr ⟨rfl, .inr rfl⟩
  | ran completed halt =>
    rcases List.mem_append.mp h with hmem | hmem
    · obtain ⟨step, -, rfl⟩ := List.mem_map.mp hmem
      exact .inl rfl
    · cases halt with
      | failed step failure =>
        obtain rfl := List.mem_singleton.mp hmem
        exact .inr ⟨rfl, .inl rfl⟩
      | through _ _ | calledOff _ | waits _ => cases hmem

/-- All counters of a story are told a one. -/
theorem value_of_counter {sample : Sample}
    (h : sample ∈ story.ownSamples request.route ++
      Dispatcher.endSamples request.route (story.outcome d request))
    (hname : sample.name ∈ ["invocations_total", "denials_total", "step_failures_total"]) :
    sample.value = some (.int 1) := by
  rcases List.mem_append.mp h with hmem | hmem
  · rcases name_of_mem_ownSamples hmem with hduration | ⟨hvalue, -⟩
    · rw [hduration] at hname
      simp at hname
    · exact hvalue
  · simp only [Dispatcher.endSamples, List.mem_cons, List.not_mem_nil, or_false] at hmem
    rcases hmem with rfl | rfl
    · simp at hname
    · rfl

/-- How often a story counts in a counter under some tags. -/
def count (d : Dispatcher) (request : Request) (name : String) (tags : Entries)
    (story : Story) : Nat :=
  (story.ownSamples request.route ++
    Dispatcher.endSamples request.route (story.outcome d request)).countP
    fun sample => sample.name == name && Metrics.hasTags tags sample

/-- Every story counts once as an invocation, under its outcome. -/
theorem count_invocations {tags : Entries} :
    story.count d request "invocations_total" tags =
      if Metrics.hasTags tags ⟨.count, "invocations_total", some (.int 1),
        Dispatcher.endTags request.route (story.outcome d request)⟩ then 1 else 0 := by
  have hown : (story.ownSamples request.route).countP
      (fun sample => sample.name == "invocations_total" && Metrics.hasTags tags sample) = 0 := by
    rw [List.countP_eq_zero]
    intro sample hsample
    rcases name_of_mem_ownSamples hsample with hname | ⟨-, hname | hname⟩ <;> simp [hname]
  rw [count, List.countP_append, hown]
  simp [Dispatcher.endSamples, List.countP_cons]

theorem hasTags_outcome {route : Route} {outcome : Outcome} {label : String} {kind : SampleKind}
    {name : String} {value : Option Value} :
    Metrics.hasTags [(.text "outcome", .text label)] ⟨kind, name, value,
      Dispatcher.endTags route outcome⟩ =
      (outcome.label == label) := by
  simp [Metrics.hasTags, Dispatcher.endTags, Entries.get?, Scalar.same, Value.same, Value.text]

/-- How long a step took counts in no other metric. -/
theorem countP_durations {name : String} {tags : Entries} {steps : List Step}
    (h : name ≠ "step_duration_seconds") : (steps.map Step.durationSample).countP
      (fun sample => sample.name == name && Metrics.hasTags tags sample) = 0 := by
  rw [List.countP_map, List.countP_eq_zero]
  intro step _
  simp [Step.durationSample, h.symm]

/-- A story counts as a denial if it is one. -/
theorem count_denials {tags : Entries} :
    story.count d request "denials_total" tags =
      if story.isDenied && Metrics.hasTags tags (Dispatcher.denialSample request.route) then
        1 else 0 := by
  cases story with
  | unserved | late => simp [count, ownSamples, isDenied, Dispatcher.endSamples]
  | denied =>
    simp [count, ownSamples, isDenied, Dispatcher.endSamples, Dispatcher.denialSample,
      List.countP_cons]
  | ran completed halt =>
    rw [count, ownSamples, List.countP_append, List.countP_append, countP_durations (by decide)]
    cases halt <;> simp [Halt.samples, isDenied, Dispatcher.endSamples, Step.failureSample]

theorem hasTags_kind {step : Step} {failure : Failure} {kind : FailureKind} :
    Metrics.hasTags [(.text "kind", .text kind.code)] (step.failureSample failure) =
      (failure.kind == kind) := by
  have hcode : (failure.kind.code == kind.code) = (failure.kind == kind) := by
    cases failure.kind <;> cases kind <;> rfl
  rw [← hcode]
  simp [Metrics.hasTags, Step.failureSample, Entries.get?, Scalar.same, Value.same, Value.text]

theorem count_failures {kind : FailureKind} :
    story.count d request "step_failures_total" [(.text "kind", .text kind.code)] =
      if story.failedWith? == some kind then 1 else 0 := by
  cases story with
  | unserved | denied | late => rfl
  | ran completed halt =>
    rw [count, ownSamples, List.countP_append, List.countP_append, countP_durations (by decide)]
    cases halt with
    | failed step failure =>
      have hname : (step.failureSample failure).name = "step_failures_total" := rfl
      simp [Halt.samples, failedWith?, Dispatcher.endSamples, List.countP_cons, hasTags_kind, hname]
    | through _ _ | calledOff _ | waits _ => simp [Halt.samples, failedWith?, Dispatcher.endSamples]

theorem filter_durations {steps : List Step} :
    (steps.map Step.durationSample).filter (·.name == "step_duration_seconds") =
      steps.map Step.durationSample := by
  rw [List.filter_eq_self]
  intro sample hsample
  obtain ⟨step, -, rfl⟩ := List.mem_map.mp hsample
  rfl

/-- Of a story one sample of a duration is told for each step that was completed. -/
theorem filter_samples :
    (story.ownSamples request.route ++
      Dispatcher.endSamples request.route (story.outcome d request)).filter
      (·.name == "step_duration_seconds") = story.completed.map Step.durationSample := by
  cases story with
  | unserved | denied | late => rfl
  | ran completed halt =>
    rw [ownSamples, List.filter_append, List.filter_append, filter_durations]
    cases halt <;> simp [Halt.samples, Dispatcher.endSamples, Step.failureSample, Story.completed]

end Story

/-! ## §4 Accounts -/

/-- A visit and its story. -/
structure Account where
  visit : Visit Request Service
  story : Story

namespace Account

variable (d : Dispatcher)

/-- **An account holds**: the story is that of the request, begun and resumed as it was. -/
def Holds (account : Account) : Prop :=
  d.Handles account.visit.start account.visit.request true
    (account.visit.turns.map (·.world)) account.story

def response (account : Account) : Response :=
  account.story.response d account.visit.start account.visit.request

def samples (account : Account) : List Sample :=
  account.story.ownSamples account.visit.request.route ++
    Dispatcher.endSamples account.visit.request.route
      (account.story.outcome d account.visit.request)

/-- What comes on the trail of a visit. -/
def share (account : Account) : List (Nat × HookCall) :=
  d.hooks.heard account.visit.start.received
    (account.story.calls d account.visit.start account.visit.request)

variable {d}

/-- A visit that was answered has a story. -/
theorem exists_holds {visit : Visit Request Service}
    {flight : Activity Service (Except Raised Response)} {share : List (Nat × HookCall)}
    {response : Response}
    (hflight : flight = (d.handle visit.request visit.start).after visit.turns)
    (hadds : (d.handle visit.request visit.start).Adds
      (·.world.trail) visit.start visit.turns share)
    (hreturn : flight.result? = some (.ok response)) :
    ∃ account : Account, account.visit = visit ∧ account.Holds d ∧ response = account.response d ∧
      share = account.share d := by
  -- Only what is over has a result.
  cases flight with
  | done u x =>
    obtain rfl := Option.some.inj hreturn
    obtain ⟨story, hstory, hresponse⟩ := Dispatcher.handle_ends_iff.mp ⟨u, hadds.ends hflight.symm⟩
    exact ⟨⟨visit, story⟩, rfl, hstory, hresponse, hadds.unique hstory.adds⟩
  | paused _ _ | waiting _ _ => cases hreturn

/-- Visits that were all answered have stories. -/
theorem exists_all_hold {visits : List (Visit Request Service)}
    {flights : List (Activity Service (Except Raised Response))}
    {shares : List (List (Nat × HookCall))} {responses : List Response}
    (hflights : List.Forall₂
      (fun visit flight => flight = (d.handle visit.request visit.start).after visit.turns) visits
      flights)
    (hadds : List.Forall₂ (fun visit share =>
      (d.handle visit.request visit.start).Adds (·.world.trail) visit.start visit.turns share)
        visits shares)
    (hreturn : flights.map (·.result?) = responses.map fun response => some (.ok response)) :
    ∃ accounts : List Account, accounts.map (·.visit) = visits ∧
      (∀ account ∈ accounts, account.Holds d) ∧
      responses = accounts.map (·.response d) ∧ shares = accounts.map (·.share d) := by
  induction hflights generalizing shares responses with
  | nil =>
    cases hadds
    obtain rfl := List.map_eq_nil_iff.mp hreturn.symm
    exact ⟨[], rfl, by simp, rfl, rfl⟩
  | cons hflight _ ih =>
    cases hadds with
    | cons hfirst hrest =>
      obtain ⟨response, later, rfl, hresponse, hlater⟩ := List.map_eq_cons_iff.mp hreturn.symm
      obtain ⟨account, rfl, hholds, rfl, rfl⟩ := exists_holds hflight hfirst hresponse.symm
      obtain ⟨accounts, rfl, hall, rfl, rfl⟩ := ih hrest hlater.symm
      exact ⟨account :: accounts, rfl, List.forall_mem_cons.mpr ⟨hholds, hall⟩, rfl, rfl⟩

/-- A metrics hook is told the samples of the accounts. -/
theorem samples_share {hook : Hook Sample} (hmetrics : d.hooks.metrics = some hook)
    {accounts : List Account} : (accounts.map (·.share d)).flatten.filterMap (·.2.sample?) =
      accounts.flatMap (·.samples d) := by
  rw [List.filterMap_flatten, List.map_map, List.flatMap_def]
  congr 1
  apply List.map_congr_left
  intro account _
  exact (Hooks.samples_heard hmetrics).trans Story.samples_calls

/-- **The total of a counter** in which each account of a sort counts once. -/
theorem total_eq_countP {collected : List Sample} {accounts : List Account} {name : String}
    {tags : Entries} {q : Account → Bool}
    (hcollected : collected.Perm (accounts.flatMap (·.samples d)))
    (hname : name ∈ ["invocations_total", "denials_total", "step_failures_total"])
    (hcount : ∀ account ∈ accounts, account.story.count d account.visit.request name tags =
      if q account then 1 else 0) :
    (Metrics.mk collected).total name tags = .ok (.int (accounts.countP q : Nat)) := by
  have hones : ∀ sample ∈ collected, sample.name = name → sample.value = some (.int 1) := by
    rintro sample hsample rfl
    obtain ⟨account, -, hmem⟩ := List.mem_flatMap.mp (hcollected.mem_iff.mp hsample)
    exact Story.value_of_counter hmem hname
  have hsum : (accounts.flatMap (·.samples d)).countP _ = accounts.countP q :=
    countP_flatMap_of_one hcount
  rw [Metrics.total_eq_countP hones, hcollected.countP_eq, hsum]

end Account

/-! ## §5 Traffic -/

namespace Event

/-- What happens with an event, as far as requests are handled. -/
def deed : Event → Deed Request Service
  | .arrives request => .take request
  | .proceeds place => .turn place
  | .reloads table => .change (·.reload table)
  | .stirs change => .change fun service => { service with world := change service.world }

theorem move_eq {d : Dispatcher} {event : Event} : event.move d = event.deed.move d.handle := by
  cases event <;> rfl

/-- The request that comes in, if one does. -/
def request? : Event → Option Request
  | .arrives request => some request
  | .proceeds _ | .reloads _ | .stirs _ => none

/-- Whether a request comes in. -/
def isArrival : Event → Bool
  | .arrives _ => true
  | .proceeds _ | .reloads _ | .stirs _ => false

theorem isSome_request? {event : Event} : event.request?.isSome = event.isArrival := by
  cases event <;> rfl

end Event

namespace Dispatcher

/-- **The visits of a traffic**: the requests that came in, each with the service in which it came
in and those in which it was resumed. -/
def visits (d : Dispatcher) (service : Service) (events : List Event) :
    List (Visit Request Service) :=
  Pool.visitsFrom d.handle ⟨service, []⟩ [] (events.map Event.deed)

/-- Whether the gate denies a request for a route that is served. -/
def denies (service : Service) (request : Request) : Bool :=
  (asksFor service request).isSome && !(decides service request).allowed

variable {d : Dispatcher} {service : Service} {events : List Event}

/-- The requests that came in, in their order. -/
def requests (events : List Event) : List Request := events.filterMap Event.request?

theorem requests_attend {pool : Pool Service (Except Raised Response)}
    {visits : List (Visit Request Service)} {event : Event} :
    (pool.attend visits event.deed).map (·.request) =
      visits.map (·.request) ++ event.request?.toList := by
  cases event with
  | arrives request => exact List.map_append
  | reloads table | stirs change => exact (List.append_nil _).symm
  | proceeds place =>
    simp only [Event.deed, Pool.attend, Event.request?, Option.toList_none, List.append_nil]
    split
    · -- A visit stays one of the same request.
      rename_i visit _ hvisit
      obtain ⟨hplace, rfl⟩ := List.getElem?_eq_some_iff.mp hvisit
      have hbound : place < (visits.map (·.request)).length := by rwa [List.length_map]
      have hsame : (visits[place].turned pool.state).request = (visits.map (·.request))[place] := by
        simp [Visit.turned]
      rw [List.map_set, hsame, List.set_getElem_self]
    · rfl

theorem requests_visitsFrom {pool : Pool Service (Except Raised Response)}
    {visits : List (Visit Request Service)} :
    (pool.visitsFrom d.handle visits (events.map Event.deed)).map (·.request) =
      visits.map (·.request) ++ requests events := by
  induction events generalizing pool visits with
  | nil => exact (List.append_nil _).symm
  | cons event rest ih =>
    rw [List.map_cons, Pool.visitsFrom, ih, requests_attend, List.append_assoc, requests, requests]
    cases event <;> rfl

/-- **Each request that came in is one visit.** -/
theorem requests_visits (d : Dispatcher) (service : Service) (events : List Event) :
    (d.visits service events).map (·.request) = requests events :=
  requests_visitsFrom

theorem length_visits (d : Dispatcher) (service : Service) :
    (d.visits service events).length = events.countP Event.isArrival := by
  have hlength := congrArg List.length (requests_visits d service events)
  rw [List.length_map, requests, List.length_filterMap_eq_countP] at hlength
  simpa only [Event.isSome_request?] using hlength

theorem denies_of_handles {request : Request} {off : Bool} {ts : List World} {story : Story}
    (h : d.Handles service request off ts story) : story.isDenied = denies service request := by
  cases h with
  | unserved hasks => simp [Story.isDenied, denies, hasks]
  | denied hasks hdenied => simp [Story.isDenied, denies, hasks, hdenied]
  | allowed hasks hallowed hruns =>
    cases hruns <;> simp [Story.isDenied, denies, hallowed]

/-- The visits log the traffic, if nobody else adds to the trail. -/
theorem logs_traffic (d : Dispatcher) (service : Service)
    (hstirs : ∀ change, .stirs change ∈ events → ∀ w, (change w).trail = w.trail) :
    ∃ shares, Pool.Logs d.handle (·.world.trail) service.world.trail (d.traffic service events)
      (d.visits service events) shares := by
  have hmoves : events.map (Event.move d) = (events.map Event.deed).map (Deed.move d.handle) := by
    rw [List.map_map]
    exact List.map_congr_left fun event _ => Event.move_eq
  rw [traffic, hmoves]
  refine (Pool.Logs.empty service).run (fun request s => handle_grows) fun f hf s => ?_
  obtain ⟨event, hevent, hdeed⟩ := List.mem_map.mp hf
  cases event with
  | arrives request | proceeds place => cases hdeed
  | reloads table =>
    obtain rfl := Deed.change.inj hdeed
    rfl
  | stirs change =>
    obtain rfl := Deed.change.inj hdeed
    exact hstirs change hevent s.world

/-- What a collector has been told. -/
def collected (pool : Pool Service (Except Raised Response)) : Metrics :=
  pool.state.world.samples.foldl Metrics.add {}

/-- **The accounts of a traffic**: if a metrics hook listens that has been told nothing yet,
nobody else adds to the trail and all requests that come in are answered, then there are accounts
that hold of the visits, and the hook has been told their samples, in the order in which the
requests had their turns. -/
theorem exists_accounts {hook : Hook Sample} {responses : List Response}
    (hmetrics : d.hooks.metrics = some hook) (hfresh : service.world.samples = [])
    (hstirs : ∀ change, .stirs change ∈ events → ∀ w, (change w).trail = w.trail)
    (hreturn : (d.traffic service events).results = responses.map fun response =>
      some (.ok response)) :
    ∃ accounts : List Account, accounts.map (·.visit) = d.visits service events ∧
      (∀ account ∈ accounts, account.Holds d) ∧ responses = accounts.map (·.response d) ∧
      (d.traffic service events).state.world.samples.Perm (accounts.flatMap (·.samples d)) := by
  obtain ⟨shares, hlogs⟩ := logs_traffic d service hstirs
  obtain ⟨accounts, hvisits, hholds, rfl, rfl⟩ :=
    Account.exists_all_hold hlogs.flights hlogs.adds hreturn
  refine ⟨accounts, hvisits, hholds, rfl, ?_⟩
  have htrail := hlogs.trail.filterMap (·.2.sample?)
  rw [List.filterMap_append, Account.samples_share hmetrics] at htrail
  have hnone : service.world.trail.filterMap (·.2.sample?) = [] := hfresh
  rwa [hnone, List.nil_append] at htrail

/-- **Metrics account for every request.** Let a metrics hook listen that has been told nothing yet,
let nobody else add to the trail, and let all requests that come in be answered, whatever else
happens and in whatever order they go on. Then there are accounts that hold of the visits, and of
all that the hook has been told

* the total of the invocations is the number of requests, and under each outcome that
of the answers with it,
* the total of the denials is the number of requests that the gate denied,
* the total of the failing steps under each kind is the number of runs in which a
step failed with it, and
* there is one duration for each step that was completed. -/
theorem metrics_account_for_traffic {hook : Hook Sample} {responses : List Response}
    (hmetrics : d.hooks.metrics = some hook) (hfresh : service.world.samples = [])
    (hstirs : ∀ change, .stirs change ∈ events → ∀ w, (change w).trail = w.trail)
    (hreturn : (d.traffic service events).results = responses.map fun response =>
      some (.ok response)) :
    ∃ accounts : List Account, accounts.map (·.visit) = d.visits service events ∧
      (∀ account ∈ accounts, account.Holds d) ∧ responses = accounts.map (·.response d) ∧
      let collected := collected (d.traffic service events)
      collected.total "invocations_total" [] = .ok (.int (events.countP Event.isArrival : Nat)) ∧
      (∀ label, collected.total "invocations_total" [(.text "outcome", .text label)] =
        .ok (.int (responses.countP (·.outcome.label == label) : Nat))) ∧
      collected.total "denials_total" [] =
        .ok (.int ((d.visits service events).countP fun visit =>
          denies visit.start visit.request : Nat)) ∧
      (∀ kind : FailureKind, collected.total "step_failures_total"
        [(.text "kind", .text kind.code)] =
        .ok (.int (accounts.countP (·.story.failedWith? == some kind) : Nat))) ∧
      (collected.entries "step_duration_seconds").Perm
        ((accounts.flatMap (·.story.completed)).map Step.durationSample) := by
  obtain ⟨accounts, hvisits, hholds, rfl, hperm⟩ := exists_accounts hmetrics hfresh hstirs hreturn
  refine ⟨accounts, hvisits, hholds, rfl, ?_⟩
  rw [collected, Metrics.foldl_add, List.nil_append]
  refine ⟨?_, fun label => ?_, ?_, fun kind => ?_, ?_⟩
  · rw [Account.total_eq_countP hperm (q := fun _ => true) (by simp) fun account _ =>
      Story.count_invocations]
    rw [List.countP_true, ← length_visits d service, ← hvisits, List.length_map]
  · rw [List.countP_map]
    refine Account.total_eq_countP hperm (by simp) fun account _ => ?_
    rw [Story.count_invocations, Story.hasTags_outcome]
    rfl
  · rw [← hvisits, List.countP_map]
    refine Account.total_eq_countP hperm (by simp) fun account haccount => ?_
    rw [Story.count_denials, denies_of_handles (hholds account haccount), Metrics.hasTags,
      List.all_nil, Bool.and_true]
    rfl
  · exact Account.total_eq_countP hperm (by simp) fun account _ => Story.count_failures
  · have hdurations : (accounts.flatMap (·.samples d)).filter (·.name == "step_duration_seconds") =
        (accounts.flatMap (·.story.completed)).map Step.durationSample := by
      rw [List.filter_flatMap, List.map_flatMap]
      congr 1
      funext account
      exact Story.filter_samples
    rw [← hdurations]
    exact hperm.filter _

/-- A dispatcher with a metrics hook. -/
def countingDispatcher : Dispatcher where
  hooks := { metrics := some { name := fun _ => "record", failure := fun _ _ => none } }
  newId := fun _ => "id"

/-- A request that is suspended, one for no route, and the end of the first. -/
def overlappingEvents : List Event :=
  [.arrives { route := ⟨"desk", "slow"⟩ }, .arrives { route := ⟨"desk", "none"⟩ }, .proceeds 0]

/-- What the accounts come to for a request that is answered and one for a route
that is not served. -/
theorem metrics_account_for_overlapping :
    let collected := collected (countingDispatcher.traffic slowService overlappingEvents)
    collected.total "invocations_total" [] = .ok (.int 2) ∧
    collected.total "invocations_total" [(.text "outcome", .text "ok")] = .ok (.int 1) ∧
    collected.total "denials_total" [] = .ok (.int 0) := by
  have hreturn : (countingDispatcher.traffic slowService overlappingEvents).results =
      [⟨.success (.text "answer") [("first", .text "answer")], some "id"⟩,
        ⟨.failed (absence ⟨"desk", "none"⟩) [], some "id"⟩].map fun response =>
          some (.ok response) := rfl
  have hstirs : ∀ change, .stirs change ∈ overlappingEvents → ∀ w, (change w).trail = w.trail := by
    simp [overlappingEvents]
  obtain ⟨-, -, -, -, hcalls, houtcomes, hdenials, -⟩ :=
    metrics_account_for_traffic rfl rfl hstirs hreturn
  exact ⟨hcalls, houtcomes "ok", hdenials⟩

end Dispatcher

end Switchyard
