import Mathlib.Data.List.Basic
import Switchyard.Journal
import Switchyard.Proofs.Value.Fields

/-!
# Stamps of events

An event is stamped with its type and with the identifier that is current when it is emitted. The
stamps stand in one flat record with the fields of the caller, and a field of the same name takes
the place of a stamp. So a caller can hide an event from the identifier that it belongs to, pass it
off as one of another identifier, and change its type.

Main statements: the events that a journal keeps are those that were emitted since it was
cleared (`events_run`), and when they are found under the identifiers under which they were
emitted (`findsOwn_iff`).
-/

namespace Switchyard

/-! ## §1 Calls -/

/-- **A call** of a journal. -/
inductive JournalCall
  /-- A call of the audit hook: an identifier, the start or the end of a step, or an anomaly. -/
  | audit (call : AuditCall)
  | event (type : String) (data : Entries) (level : String)
  | record (name kind : String) (value : Option Value) (tags : Entries)
  | stampWith (id : String)
  | stampRoute (route : String)
  | clear

/-- **What is emitted** by a call: an event with its type, under the identifier that is current. Its
fields are those that the caller supplied, behind those that the call has of its own. -/
structure Emission where
  id : Option String
  type : String
  fields : Entries
  supplied : Entries

namespace JournalCall

/-- The identifier that is current after a call. -/
def current (before : Option String) : JournalCall → Option String
  | .audit (.identified id) | .stampWith id => some id
  | .audit (.stepStarted ..) | .audit (.stepEnded ..) | .audit (.anomaly ..) | .event ..
  | .record .. | .stampRoute _
  | .clear => before

def clears : JournalCall → Bool
  | .clear => true
  | .audit _ | .event .. | .record .. | .stampWith _ | .stampRoute _ => false

/-- The event that a call emits under an identifier, if it emits one. -/
def emission? (id : Option String) : JournalCall → Option Emission
  | .event type data _ => some ⟨id, type, data, data⟩
  | .audit (.stepStarted step index metadata) =>
    some ⟨id, "step_started",
      Entries.ofPairs ([(.text "step", .text step), (.text "step_index", .int index)] ++ metadata),
        metadata⟩
  | .audit (.stepEnded step outputs seconds metadata) =>
    let duration := match seconds with
      | some v => [(.text "duration_seconds", v)]
      | none => []
    some ⟨id, "step_finished", Entries.ofPairs
      ([(.text "step", .text step), (.text "outputs_recorded", .int outputs)] ++ duration ++
        metadata), metadata⟩
  | .audit (.anomaly message severity context) =>
    some ⟨id, "anomaly",
      Entries.ofPairs ([(.text "message", .text message), (.text "severity", .text severity)] ++
        context), context⟩
  | .audit (.identified _) | .record .. | .stampWith _ | .stampRoute _ | .clear => none

variable {call : JournalCall} {id : Option String} {e : Emission} {name : String}

theorem emission?_of_clears (h : call.clears = true) : call.emission? id = none := by
  cases call with
  | clear => rfl
  | audit | event | record | stampWith | stampRoute => simp [clears] at h

/-- **The names of stamps are not among those that a call has of its own**: what an event has under
one of them, the caller supplied. -/
theorem last?_fields_of_emission? (h : call.emission? id = some e)
    (hname : name = "correlation_id" ∨ name = "event_type") :
    Entries.last? e.fields name = Entries.last? e.supplied name := by
  cases call with
  | audit call =>
    cases call with
    | identified => simp [emission?] at h
    | stepStarted | anomaly =>
      obtain rfl := Option.some.inj h
      apply Entries.last?_ofPairs_append
      rcases hname with rfl | rfl <;> simp [Scalar.same]
    | stepEnded step outputs seconds metadata =>
      obtain rfl := Option.some.inj h
      apply Entries.last?_ofPairs_append
      -- The duration is there or not.
      cases seconds <;> rcases hname with rfl | rfl <;> simp [Scalar.same]
  | event type data level =>
    obtain rfl := Option.some.inj h
    rfl
  | record | stampWith | stampRoute | clear => simp [emission?] at h

end JournalCall

/-- **What is emitted by calls** and not cleared by a later one, where an identifier is
current before the first. -/
def emissions (current : Option String) : List JournalCall → List Emission
  | [] => []
  | call :: rest =>
    (if rest.any (·.clears) then [] else (call.emission? current).toList) ++
      emissions (call.current current) rest

namespace Emission

variable {e : Emission}

/-- The record that is kept of an event. -/
def record (e : Emission) : Entries :=
  Entries.ofPairs ([(.text "event_type", .text e.type),
    (.text "correlation_id", (e.id.map Value.text).getD .null)] ++ e.fields)

/-- The identifier that the record of an event is found under. -/
def stamp (e : Emission) : Option String := (e.record.field? "correlation_id").bind Value.asText?

/-- **An event keeps its stamps**: what the caller supplied under the name of a stamp, if
anything, says the same. Without an identifier it is enough not to say another one, and nobody
looks for the type. -/
structure KeepsStamps (e : Emission) : Prop where
  id : ∀ v, Entries.last? e.supplied "correlation_id" = some v → v.asText? = e.id
  type : ∀ id, e.id = some id → ∀ v, Entries.last? e.supplied "event_type" = some v →
    v = .text e.type

/-- The identifier of an event goes into its record, if nothing else does. -/
theorem stamp_eq : e.stamp =
    match Entries.last? e.fields "correlation_id" with
    | some v => v.asText?
    | none => e.id := by
  rw [stamp, record, Entries.field?_ofPairs, Entries.last?_append]
  cases Entries.last? e.fields "correlation_id" with
  | some v => rfl
  | none => cases hid : e.id <;> simp [Entries.last?, Scalar.same, Value.asText?]

theorem event_type_eq : e.record.field? "event_type" =
    some ((Entries.last? e.fields "event_type").getD (.text e.type)) := by
  rw [record, Entries.field?_ofPairs, Entries.last?_append]
  cases Entries.last? e.fields "event_type" with
  | some v => rfl
  | none => simp [Entries.last?, Scalar.same]

end Emission

namespace Journal

/-- **What a call does to a journal**, and whether it raises an error. -/
def perform (journal : Journal) : JournalCall → Except Raised Unit × Journal
  | .audit call => journal.audit call
  | .event type data level => journal.log type data level
  | .record name kind value tags => journal.record name kind value tags
  | .stampWith id => (.ok (), journal.stampWith id)
  | .stampRoute route => (.ok (), journal.stampRoute route)
  | .clear => (.ok (), journal.clear)

/-- The journal after some calls. -/
def run (journal : Journal) (calls : List JournalCall) : Journal :=
  calls.foldl (fun journal call => (journal.perform call).2) journal

/-- **Events are found under their own identifiers**: under each identifier the events that were
emitted while it was current, in the order in which they were, and each of them with its type. -/
def FindsOwn (journal : Journal) (emitted : List Emission) : Prop :=
  ∀ id, journal.eventsUnder id = (emitted.filter (·.id == some id)).map (·.record) ∧
    ∀ e ∈ emitted, e.id = some id → e.record.field? "event_type" = some (.text e.type)

variable {journal : Journal} {call : JournalCall}

/-! ## §2 What is kept -/

theorem log_events (type : String) (fields : Entries) (word : String) :
    (journal.log type fields word).2.events = journal.events ++ [journal.event type fields] := by
  unfold log
  split
  split
  · rfl
  · split <;> rfl

theorem log_current (type : String) (fields : Entries) (word : String) :
    (journal.log type fields word).2.current = journal.current := by
  unfold log
  split
  split
  · rfl
  · split <;> rfl

theorem record_events_current (name kind : String) (value : Option Value) (tags : Entries) :
    (journal.record name kind value tags).2.events = journal.events ∧
      (journal.record name kind value tags).2.current = journal.current := by
  unfold record
  split <;> simp

/-- **A call keeps the event that it emits**, also if it raises an error, or forgets all events. -/
theorem events_perform : (journal.perform call).2.events =
    if call.clears then
      [] else journal.events ++ ((call.emission? journal.current).map (·.record)).toList := by
  cases call with
  | audit call =>
    cases call with
    | identified id => simp [perform, audit, identify, JournalCall.clears, JournalCall.emission?]
    | stepStarted | stepEnded | anomaly =>
      simp only [perform, audit, log_events, JournalCall.clears, JournalCall.emission?]
      rfl
  | event type data level =>
    simp only [perform, log_events, JournalCall.clears, JournalCall.emission?]
    rfl
  | record name kind value tags =>
    simp [perform, record_events_current, JournalCall.clears, JournalCall.emission?]
  | stampWith | stampRoute | clear =>
    simp [perform, stampWith, stampRoute, clear, JournalCall.clears, JournalCall.emission?]

theorem current_perform : (journal.perform call).2.current = call.current journal.current := by
  cases call with
  | audit call => cases call <;> simp [perform, audit, identify, log_current, JournalCall.current]
  | event => simp [perform, log_current, JournalCall.current]
  | record => simp [perform, record_events_current, JournalCall.current]
  | stampWith | stampRoute | clear =>
    simp [perform, stampWith, stampRoute, clear, JournalCall.current]

/-- **What a journal keeps** are the events that were emitted since it was cleared, and those from
before if it was not. -/
theorem events_run (calls : List JournalCall) : (journal.run calls).events =
    (if calls.any (·.clears) then [] else journal.events) ++
      (emissions journal.current calls).map (·.record) := by
  induction calls generalizing journal with
  | nil => simp [run, emissions]
  | cons call rest ih =>
    have hrun : journal.run (call :: rest) = (journal.perform call).2.run rest := rfl
    rw [hrun, ih, events_perform, current_perform, emissions]
    cases hrest : rest.any (·.clears) with
    | true => simp [hrest]
    | false =>
      cases hclears : call.clears with
      | true => simp [hrest, hclears, JournalCall.emission?_of_clears hclears]
      | false => simp [hrest, hclears, Option.toList_map]

/-- The events that are found under an identifier in a journal that was empty: those
whose records say so. -/
theorem eventsUnder_run (threshold : Int) (current : Option String) (bound : Entries)
    (calls : List JournalCall) (id : String) :
    (({ threshold, current, bound } : Journal).run calls).eventsUnder id =
      ((emissions current calls).filter (·.stamp == some id)).map (·.record) := by
  rw [eventsUnder, events_run, List.filter_append, List.filter_map]
  simp
  rfl

end Journal

/-! ## §3 Which events are found -/

theorem exists_of_mem_emissions {e : Emission} {current : Option String} {calls : List JournalCall}
    (h : e ∈ emissions current calls) :
    ∃ (call : JournalCall) (id : Option String), call.emission? id = some e := by
  induction calls generalizing current with
  | nil => simp [emissions] at h
  | cons call rest ih =>
    rcases List.mem_append.mp h with hfirst | hrest
    · by_cases hclears : rest.any (·.clears) = true
      · simp [hclears] at hfirst
      · exact ⟨call, current, by simpa [hclears] using hfirst⟩
    · exact ih hrest

/-- **An event keeps its stamps** exactly if its record says under which identifier it was emitted
and, if there was one, with which type. -/
theorem Emission.keepsStamps_iff {e : Emission} {call : JournalCall} {id : Option String}
    (h : call.emission? id = some e) : e.KeepsStamps ↔ e.stamp = e.id ∧ ∀ id, e.id = some id →
    e.record.field? "event_type" = some (.text e.type) := by
  rw [stamp_eq, event_type_eq, JournalCall.last?_fields_of_emission? h (.inl rfl),
    JournalCall.last?_fields_of_emission? h (.inr rfl)]
  constructor
  · rintro ⟨hid, htype⟩
    constructor
    · cases hlast : Entries.last? e.supplied "correlation_id" with
      | none => rfl
      | some v => exact hid v hlast
    · intro id hsome
      cases hlast : Entries.last? e.supplied "event_type" with
      | none => rfl
      | some v => rw [htype id hsome v hlast, Option.getD_some]
  · rintro ⟨hid, htype⟩
    constructor
    · intro v hlast
      simpa [hlast] using hid
    · intro id hsome v hlast
      simpa [hlast] using htype id hsome

/-- If a list keeps the same records by two tests, of which one only looks at the records,
the tests agree on it. -/
theorem eq_of_map_filter_eq {α β : Type} {l : List α} {p q : α → Bool} {record : α → β}
    {r : β → Bool} (hp : ∀ a, p a = r (record a))
    (h : (l.filter p).map record = (l.filter q).map record) : ∀ a ∈ l, p a = q a := by
  have himp : ∀ a ∈ l, q a = true → p a = true := by
    intro a ha hq
    have hmem : record a ∈ (l.filter p).map record := by
      rw [h]
      exact List.mem_map_of_mem (List.mem_filter.mpr ⟨ha, hq⟩)
    obtain ⟨b, hb, hrecord⟩ := List.mem_map.mp hmem
    rw [hp, ← hrecord, ← hp]
    exact (List.mem_filter.mp hb).2
  -- What the one test keeps is among what the other keeps, and as much.
  have hsub : l.filter q = (l.filter p).filter q := by
    rw [List.filter_filter]
    apply List.filter_congr
    intro a ha
    cases hq : q a with
    | true => simp [himp a ha hq]
    | false => rfl
  have hlength : ((l.filter p).filter q).length = (l.filter p).length := by
    rw [← hsub]
    simpa using (congrArg List.length h).symm
  intro a ha
  apply Bool.eq_iff_iff.mpr
  refine ⟨fun hpa => ?_, himp a ha⟩
  exact List.length_filter_eq_length_iff.mp hlength a (List.mem_filter.mpr ⟨ha, hpa⟩)

namespace Journal

/-- **When events are found under their own identifiers**: if each of them keeps its stamps. -/
theorem findsOwn_iff (threshold : Int) (current : Option String) (bound : Entries)
    (calls : List JournalCall) :
    (({ threshold, current, bound } : Journal).run calls).FindsOwn (emissions current calls) ↔
      ∀ e ∈ emissions current calls, e.KeepsStamps := by
  constructor
  · intro h e he
    obtain ⟨call, before, hcall⟩ := exists_of_mem_emissions he
    rw [Emission.keepsStamps_iff hcall]
    refine ⟨?_, fun id hid => (h id).2 e he hid⟩
    apply Option.ext
    intro id
    have hlists := (h id).1
    rw [eventsUnder_run] at hlists
    have hagree : (e.stamp == some id) = (e.id == some id) :=
      eq_of_map_filter_eq (r := fun record : Entries =>
        (record.field? "correlation_id").bind Value.asText? == some id)
        (fun _ => rfl) hlists e he
    simpa using Bool.eq_iff_iff.mp hagree
  · intro h id
    have hkept : ∀ e ∈ emissions current calls,
        e.stamp = e.id ∧ ∀ id, e.id = some id →
          e.record.field? "event_type" = some (.text e.type) := by
      intro e he
      obtain ⟨call, before, hcall⟩ := exists_of_mem_emissions he
      exact (Emission.keepsStamps_iff hcall).mp (h e he)
    refine ⟨?_, fun e he => (hkept e he).2 id⟩
    rw [eventsUnder_run, List.filter_congr]
    intro e he
    rw [(hkept e he).1]

/-- An identifier, and an event whose data have a field of the name of the stamp. -/
def crossedCalls : List JournalCall :=
  [.audit (.identified "a"), .event "x" [(.text "correlation_id", .text "b")] "info"]

/-- **Not all events are found under their own identifiers**: the data of one can say another. -/
theorem not_forall_findsOwn :
    ¬ ∀ calls, (({} : Journal).run calls).FindsOwn (emissions none calls) := by
  intro h
  have hfound : (({} : Journal).run crossedCalls).eventsUnder "a" = [] := by rfl
  have hemitted := (h crossedCalls "a").1
  rw [hfound] at hemitted
  simp [crossedCalls, emissions, JournalCall.emission?, JournalCall.current, JournalCall.clears]
    at hemitted

end Journal

end Switchyard
