import Switchyard.Proofs.Dispatch.Accounts

/-!
# Whose traffic metrics tell

A route is an interface and a method, and routes are told apart by both. But samples are tagged
with the text of a route, in which the two stand one after the other with colons between them,
and names may have colons too. So different routes can have one text, and the traffic of the
one counts for the other.

Main statements: what the totals under the text of a route come to (`totals_under_text`), and hence
when they are those of the route itself (`tellsOwn_iff`); they are if no interface has a colon in
its name (`tellsOwn_of_plain`).
-/

namespace Switchyard

/-! ## §1 Texts of routes -/

namespace Route

/-- A route whose interface has no colon in its name. -/
def IsPlain (route : Route) : Prop := ':' ∉ route.interface.toList

theorem toList_text (route : Route) :
    route.text.toList = route.interface.toList ++ ':' :: (':' :: route.method.toList) := by
  simp [text]

/-- What stands before the first colon. -/
theorem takeWhile_append_colon {w rest : List Char} (h : ':' ∉ w) :
    (w ++ ':' :: rest).takeWhile (· != ':') = w := by
  have hall : ∀ c ∈ w, (c != ':') = true := by
    rintro c hc
    rw [bne_iff_ne]
    rintro rfl
    exact h hc
  rw [List.takeWhile_append_of_pos hall, List.takeWhile_cons_of_neg (by simp), List.append_nil]

/-- **Plain routes can be told from their texts.** -/
theorem text_inj_of_isPlain {a b : Route} (ha : a.IsPlain) (hb : b.IsPlain)
    (h : a.text = b.text) : a = b := by
  have hchars : a.interface.toList ++ ':' :: (':' :: a.method.toList) =
      b.interface.toList ++ ':' :: (':' :: b.method.toList) := by
    rw [← toList_text, ← toList_text, h]
  have hinterface : a.interface.toList = b.interface.toList := by
    have hfront := congrArg (List.takeWhile (· != ':')) hchars
    rwa [takeWhile_append_colon ha, takeWhile_append_colon hb] at hfront
  rw [hinterface, List.append_cancel_left_eq] at hchars
  simp only [List.cons.injEq, true_and] at hchars
  cases a
  cases b
  rw [Route.mk.injEq]
  exact ⟨String.toList_inj.mp hinterface, String.toList_inj.mp hchars⟩

end Route

/-! ## §2 Totals under a text -/

namespace Story

theorem hasTags_route {route : Route} {outcome : Outcome} {text : String} {kind : SampleKind}
    {name : String} {value : Option Value} :
    Metrics.hasTags [(.text "route", .text text)] ⟨kind, name, value,
      Dispatcher.endTags route outcome⟩ =
      (route.text == text) := by
  simp [Metrics.hasTags, Dispatcher.endTags, Entries.get?, Scalar.same, Value.same, Value.text]

theorem hasTags_denialSample {route : Route} {text : String} :
    Metrics.hasTags [(.text "route", .text text)] (Dispatcher.denialSample route) =
      (route.text == text) := by
  simp [Metrics.hasTags, Dispatcher.denialSample, Entries.get?, Scalar.same, Value.same, Value.text]

end Story

namespace Dispatcher

/-- **A traffic that is counted** from its start: a metrics hook listens that has been told nothing
yet, nobody else adds to the trail, and all requests that come in are answered. -/
structure Counted (d : Dispatcher) (service : Service) (events : List Event) : Prop where
  listens : ∃ hook, d.hooks.metrics = some hook
  fresh : service.world.samples = []
  alone : ∀ change, .stirs change ∈ events → ∀ w, (change w).trail = w.trail
  answered : ∃ responses : List Response,
    (d.traffic service events).results = responses.map fun response => some (.ok response)

variable {d : Dispatcher} {service : Service} {events : List Event} {route : Route}

/-- **What the totals under a text come to**: the requests for routes with this text, and those of
them that the gate denied. -/
theorem totals_under_text (h : d.Counted service events) (text : String) :
    (collected (d.traffic service events)).total "invocations_total" [(.text "route", .text text)] =
        .ok (.int ((requests events).countP (·.route.text == text) : Nat)) ∧
      (collected (d.traffic service events)).total "denials_total" [(.text "route", .text text)] =
        .ok (.int ((d.visits service events).countP fun visit =>
          denies visit.start visit.request && visit.request.route.text == text : Nat)) := by
  obtain ⟨hook, hmetrics⟩ := h.listens
  obtain ⟨responses, hreturn⟩ := h.answered
  obtain ⟨accounts, hvisits, hholds, -, hperm⟩ := exists_accounts hmetrics h.fresh h.alone hreturn
  rw [collected, Metrics.foldl_add, List.nil_append, ← requests_visits d service,
    List.countP_map, ← hvisits, List.countP_map, List.countP_map]
  constructor
  · refine Account.total_eq_countP hperm (by simp) fun account _ => ?_
    rw [Story.count_invocations, Story.hasTags_route]
    rfl
  · refine Account.total_eq_countP hperm (by simp) fun account haccount => ?_
    rw [Story.count_denials, denies_of_handles (hholds account haccount),
      Story.hasTags_denialSample]
    rfl

/-! ## §3 Own traffic -/

/-- How many requests for a route came in. -/
def invocationsOf (events : List Event) (route : Route) : Nat :=
  (requests events).countP (·.route == route)

/-- How many of them the gate denied. -/
def denialsOf (d : Dispatcher) (service : Service) (events : List Event) (route : Route) : Nat :=
  (d.visits service events).countP fun visit =>
    denies visit.start visit.request && visit.request.route == route

/-- **The metrics tell a route's own traffic** under its text. -/
def TellsOwn (d : Dispatcher) (service : Service) (events : List Event) (route : Route) : Prop :=
  (collected (d.traffic service events)).total "invocations_total"
      [(.text "route", .text route.text)] =
      .ok (.int (invocationsOf events route : Nat)) ∧
    (collected (d.traffic service events)).total "denials_total"
      [(.text "route", .text route.text)] =
      .ok (.int (d.denialsOf service events route : Nat))

/-- Requests for no other route of the same text came in. -/
def Unmistaken (events : List Event) (route : Route) : Prop :=
  ∀ request ∈ requests events, request.route.text = route.text → request.route = route

/-- If as many members pass two tests of which one is stricter, the tests agree on the members. -/
theorem forall_of_countP_eq {α : Type} {l : List α} {p q : α → Bool}
    (himp : ∀ a ∈ l, q a = true → p a = true) (h : l.countP p = l.countP q) :
    ∀ a ∈ l, p a = true → q a = true := by
  have hsub : l.filter q = (l.filter p).filter q := by
    rw [List.filter_filter]
    apply List.filter_congr
    intro a ha
    cases hq : q a with
    | true => simp [himp a ha hq]
    | false => rfl
  rw [List.countP_eq_length_filter, List.countP_eq_length_filter, hsub] at h
  intro a ha hpa
  exact List.length_filter_eq_length_iff.mp h.symm a (List.mem_filter.mpr ⟨ha, hpa⟩)

theorem Unmistaken.text_beq {request : Request} (h : Unmistaken events route)
    (hmem : request ∈ requests events) :
    (request.route.text == route.text) = (request.route == route) := by
  rw [Bool.eq_iff_iff, beq_iff_eq, beq_iff_eq]
  exact ⟨h request hmem, congrArg Route.text⟩

theorem tellsOwn_of_unmistaken (h : d.Counted service events) (hroute : Unmistaken events route) :
    d.TellsOwn service events route := by
  obtain ⟨hcalls, hdenials⟩ := totals_under_text h route.text
  refine ⟨?_, ?_⟩
  · rw [hcalls, invocationsOf, List.countP_congr fun request hrequest => ?_]
    rw [hroute.text_beq hrequest]
  · rw [hdenials, denialsOf, List.countP_congr fun visit hvisit => ?_]
    have hrequest : visit.request ∈ requests events :=
      requests_visits d service events ▸ List.mem_map_of_mem hvisit
    rw [hroute.text_beq hrequest]

theorem unmistaken_of_tellsOwn (h : d.Counted service events)
    (hown : d.TellsOwn service events route) : Unmistaken events route := by
  have htotal : Except.ok (Value.int _) = .ok (.int _) :=
    (totals_under_text h route.text).1.symm.trans hown.1
  have hcount : (requests events).countP (·.route.text == route.text) =
      invocationsOf events route := by
    exact Int.ofNat.inj (by simpa using htotal)
  have hroutes := forall_of_countP_eq (fun request _ hsame => ?_) hcount
  · intro request hrequest htext
    exact beq_iff_eq.mp (hroutes request hrequest (beq_iff_eq.mpr htext))
  · exact beq_iff_eq.mpr (congrArg Route.text (beq_iff_eq.mp hsame))

/-- **Metrics tell a route's own traffic** under its text exactly if no requests for other routes of
the same text came in, whatever else happened and in whatever order the requests went on. -/
theorem tellsOwn_iff (h : d.Counted service events) :
    d.TellsOwn service events route ↔ Unmistaken events route :=
  ⟨unmistaken_of_tellsOwn h, tellsOwn_of_unmistaken h⟩

/-- A request that is answered tells its own, with one for a route of another text. -/
theorem tellsOwn_iff_overlapping :
    countingDispatcher.Counted slowService overlappingEvents ∧
      countingDispatcher.TellsOwn slowService overlappingEvents ⟨"desk", "slow"⟩ := by
  have hcounted : countingDispatcher.Counted slowService overlappingEvents :=
    { listens := ⟨_, rfl⟩
      fresh := rfl
      alone := by simp [overlappingEvents]
      answered := ⟨[⟨.success (.text "answer") [("first", .text "answer")], some "id"⟩,
        ⟨.failed (absence ⟨"desk", "none"⟩) [], some "id"⟩], rfl⟩ }
  have hroutes : Unmistaken overlappingEvents ⟨"desk", "slow"⟩ := by
    show ∀ request ∈ [_, _], _
    simp [Route.text]
  exact ⟨hcounted, (tellsOwn_iff hcounted).mpr hroutes⟩

/-- Unless an interface has a colon in its name, all routes are told their own. -/
theorem tellsOwn_of_plain (h : d.Counted service events) (hroute : route.IsPlain)
    (hplain : ∀ request ∈ requests events, request.route.IsPlain) :
    d.TellsOwn service events route :=
  tellsOwn_of_unmistaken h fun request hrequest htext =>
    Route.text_inj_of_isPlain (hplain request hrequest) hroute htext

/-! ## §4 Crossed traffic -/

/-- **Two routes that are served together**: different ones with names, out of pipelines that a
table was built of. -/
structure ServedTogether (service : Service) (a b : Route) : Prop where
  ne : a ≠ b
  named : ∀ route ∈ [a, b], route.interface ≠ "" ∧ route.method ≠ ""
  built : ∃ catalog pipelines, (PipelineTable.build catalog pipelines).1 =
    .ok service.table.pipelines ∧
    ∀ route ∈ [a, b], route ∈ pipelines.map (·.route)

/-- Pipelines without steps for two routes of one text. -/
def crossedPipelines : List Pipeline :=
  [{ route := ⟨"desk", "mail::send"⟩ }, { route := ⟨"desk::mail", "send"⟩ }]

/-- A service with these, of which everybody may use the first one. -/
def crossedService : Service where
  table :=
    { pipelines :=
        { pipelines := .ofList (crossedPipelines.map fun pipeline => (pipeline.route, pipeline))
          units := [] }
      gate := .ofEntries [(⟨"desk", "mail::send"⟩, .everyone)] }

/-- A request for each of them. -/
def crossedEvents : List Event :=
  [.arrives { route := ⟨"desk", "mail::send"⟩ }, .arrives { route := ⟨"desk::mail", "send"⟩ }]

theorem counted_crossed : countingDispatcher.Counted crossedService crossedEvents where
  listens := ⟨_, rfl⟩
  fresh := rfl
  alone := by simp [crossedEvents]
  answered := ⟨[⟨.success .null [], some "id"⟩, ⟨.failed Failure.denial [], some "id"⟩], rfl⟩

theorem servedTogether_crossed :
    ServedTogether crossedService ⟨"desk", "mail::send"⟩ ⟨"desk::mail", "send"⟩ where
  ne := by decide
  named := by decide
  built := ⟨{}, crossedPipelines, rfl, by simp [crossedPipelines]⟩

/-- **Not all traffic is told under its own route**: that of one route counts for another one
that is served with it. -/
theorem not_forall_tellsOwn :
    ¬ ∀ (d : Dispatcher) (service : Service) (events : List Event) (a b : Route),
      d.Counted service events →
      ServedTogether service a b → d.TellsOwn service events a ∧ d.TellsOwn service events b := by
  intro hall
  have hown := (hall _ _ _ _ _ counted_crossed servedTogether_crossed).1
  have hsame : Unmistaken crossedEvents ⟨"desk", "mail::send"⟩ :=
    unmistaken_of_tellsOwn counted_crossed hown
  have hroute :=
    hsame { route := ⟨"desk::mail", "send"⟩ } (List.mem_cons_of_mem _ List.mem_cons_self) rfl
  exact absurd hroute (by decide)

end Dispatcher

end Switchyard
