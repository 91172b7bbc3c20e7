import Switchyard.Proofs.Console.Memory
import Switchyard.Proofs.Dispatch.Isolation

/-!
# Invocations that share a console

A console that several invocations share writes each event under the identifier that it was told
last, whoever told it. The event has been caused by an invocation with an identifier of its own, and
that need not be the same.

Main statements: when all lines name the invocations that their events belong to (`namesOwn_iff`);
for invocations that can be told apart, this is when no other invocation has begun in between
(`namesOwn_iff_last_begun`); and two invocations for which it fails (`not_forall_namesOwn`).
-/

namespace Switchyard

/-- What the audit hook was told in a world, and by which invocation. -/
def World.audited (w : World) : List (Nat × AuditCall) :=
  w.trail.filterMap fun entry => entry.2.audit?.map fun call => (entry.1, call)

namespace Console

variable {verbose : Bool} {told before after : List (Nat × AuditCall)} {n m : Nat}
  {call : AuditCall}

/-! ## §1 Own events -/

/-- What one invocation told, whatever others told in between. -/
def ownCalls (n : Nat) (told : List (Nat × AuditCall)) : List AuditCall :=
  (told.filter (·.1 == n)).map (·.2)

/-- What was told by anybody. -/
def allCalls (told : List (Nat × AuditCall)) : List AuditCall := told.map (·.2)

/-- What a console writes for an event after it was told something. -/
def linesAfter (verbose : Bool) (before : List (Nat × AuditCall)) (call : AuditCall) :
    List String :=
  (((fresh verbose).tellAll (allCalls before)).2.tell call).1

/-- **All lines name their own invocations**: the lines for an event are under the identifier of the
invocation that the event belongs to, and the end of a step is told with the index with which this
invocation started the step. -/
def NamesOwn (verbose : Bool) (told : List (Nat × AuditCall)) : Prop :=
  ∀ before n call after, told = before ++ (n, call) :: after →
    linesAfter verbose before call =
      linesFor verbose (AuditCall.lastIdentifier (ownCalls n before))
        (AuditCall.lastStart · (ownCalls n before)) call

/-- The lines for an event by what was told before. -/
theorem linesAfter_eq : linesAfter verbose before call =
    linesFor verbose (AuditCall.lastIdentifier (allCalls before))
      (AuditCall.lastStart · (AuditCall.sinceIdentified (allCalls before))) call := by
  rw [linesAfter, tell_eq_linesFor, verbose_tellAll, correlationId_tellAll]
  simp only [lookup_started_tellAll]

/-- **When all lines name their own invocations**: at every event that is written the identifier
that was told last has the mark of the invocation's own; and if a step ends, the index with which
the step was started last since that identifier, by anybody, is the one with which the invocation
itself started it last. -/
theorem namesOwn_iff (verbose : Bool) (told : List (Nat × AuditCall)) :
    NamesOwn verbose told ↔ ∀ before n call after, told = before ++ (n, call) :: after →
    Writes verbose call →
      markOf (AuditCall.lastIdentifier (allCalls before)) =
        markOf (AuditCall.lastIdentifier (ownCalls n before)) ∧
      ∀ step outputs seconds metadata, call = .stepEnded step outputs seconds metadata →
        AuditCall.lastStart step (AuditCall.sinceIdentified (allCalls before)) =
          AuditCall.lastStart step (ownCalls n before) := by
  simp only [NamesOwn, linesAfter_eq, linesFor_inj]

/-! ## §2 Invocations that can be told apart -/

/-- **Each invocation begins with its identifier**, and tells it once. -/
def WellBegun (told : List (Nat × AuditCall)) : Prop :=
  ∀ before n call after, told = before ++ (n, call) :: after →
    (call.identifier?.isSome = true ↔ ownCalls n before = [])

/-- The invocation that began last. -/
def lastBegun (told : List (Nat × AuditCall)) : Option Nat :=
  told.reverse.findSome? fun entry => entry.2.identifier?.map fun _ => entry.1

/-- Since an invocation told its identifier nobody else told another one. -/
def NoneBegun (told : List (Nat × AuditCall)) : Prop := ∀ entry ∈ told, entry.2.identifier? = none

theorem ownCalls_append : ownCalls n (before ++ after) = ownCalls n before ++ ownCalls n after := by
  simp [ownCalls]

theorem ownCalls_cons_self : ownCalls n ((n, call) :: after) = call :: ownCalls n after := by
  simp [ownCalls]

/-- Either nobody has begun, or some invocation was the last to begin. -/
theorem noneBegun_or_exists_last (told : List (Nat × AuditCall)) :
    NoneBegun told ∨ ∃ before m id after, told = before ++ (m, .identified id) :: after ∧
      NoneBegun after := by
  induction told with
  | nil => exact .inl fun entry h => by cases h
  | cons entry rest ih =>
    rcases ih with hnone | ⟨before, m, id, after, rfl, hafter⟩
    · obtain ⟨k, call⟩ := entry
      cases call with
      | identified id => exact .inr ⟨[], k, id, rest, rfl, hnone⟩
      | stepStarted | stepEnded | anomaly => exact .inl (List.forall_mem_cons.mpr ⟨rfl, hnone⟩)
    · exact .inr ⟨entry :: before, m, id, after, rfl, hafter⟩

/-- An identifier starts no step. -/
theorem lastStart_identified_cons (step id : String) (calls : List AuditCall) :
    AuditCall.lastStart step (.identified id :: calls) = AuditCall.lastStart step calls := by
  rw [AuditCall.lastStart, List.reverse_cons, List.findSome?_append, ← AuditCall.lastStart]
  simp [AuditCall.startOf?]

theorem findSome?_identifier_of_noneBegun {calls : List AuditCall}
    (h : ∀ call ∈ calls, call.identifier? = none) :
    calls.reverse.findSome? AuditCall.identifier? = none :=
  List.findSome?_eq_none_iff.mpr fun call hcall => h call (List.mem_reverse.mp hcall)

/-- The identifier that was told last is that of the invocation that began last. -/
theorem lastIdentifier_of_last {calls more : List AuditCall} {id : String}
    (h : ∀ call ∈ more, call.identifier? = none) :
    AuditCall.lastIdentifier (calls ++ .identified id :: more) = some id := by
  rw [AuditCall.lastIdentifier, List.reverse_append, List.reverse_cons, List.append_assoc,
    List.findSome?_append, findSome?_identifier_of_noneBegun h]
  rfl

theorem sinceIdentified_of_last {calls more : List AuditCall} {id : String}
    (h : ∀ call ∈ more, call.identifier? = none) :
    AuditCall.sinceIdentified (calls ++ .identified id :: more) = more := by
  rw [AuditCall.sinceIdentified, List.reverse_append, List.reverse_cons, List.append_assoc,
    List.takeWhile_append_of_pos fun call hcall => by rw [h call (List.mem_reverse.mp hcall)]; rfl]
  simp [AuditCall.identifier?]

theorem lastBegun_of_noneBegun (h : NoneBegun told) : lastBegun told = none :=
  List.findSome?_eq_none_iff.mpr fun entry hentry => by
    rw [h entry (List.mem_reverse.mp hentry), Option.map_none]

theorem lastBegun_of_last {id : String} (h : NoneBegun after) :
    lastBegun (before ++ (m, .identified id) :: after) = some m := by
  rw [lastBegun, List.reverse_append, List.reverse_cons, List.append_assoc, List.findSome?_append,
    ← lastBegun, lastBegun_of_noneBegun h]
  rfl

theorem noneBegun_allCalls (h : NoneBegun told) :
    ∀ call ∈ allCalls told, call.identifier? = none := by
  intro call hcall
  obtain ⟨entry, hentry, rfl⟩ := List.mem_map.mp hcall
  exact h entry hentry

theorem allCalls_append_cons :
    allCalls (before ++ (n, call) :: after) = allCalls before ++ call :: allCalls after := by
  simp [allCalls]

/-- An invocation that has told something has told its identifier first. -/
theorem WellBegun.exists_identified (h : WellBegun (before ++ after))
    (hown : ownCalls n before ≠ []) :
    ∃ front id back, before = front ++ (n, .identified id) :: back ∧ ownCalls n front = [] := by
  induction before using List.reverseRecOn generalizing after with
  | nil => exact absurd rfl hown
  | append_singleton before entry ih =>
    rw [List.append_assoc, List.singleton_append] at h
    by_cases hearlier : ownCalls n before = []
    · -- The last entry is the first of the invocation, so it tells the identifier.
      obtain ⟨k, call⟩ := entry
      obtain rfl : k = n := by
        by_contra hother
        rw [ownCalls_append, hearlier] at hown
        simp [ownCalls, hother] at hown
      have hidentified := (h before k call after rfl).mpr hearlier
      cases call with
      | identified id => exact ⟨before, id, [], rfl, hearlier⟩
      | stepStarted | stepEnded | anomaly => cases hidentified
    · obtain ⟨front, id, back, rfl, hfront⟩ := ih h hearlier
      exact ⟨front, id, back ++ [entry], by simp, hfront⟩

/-- The last identifier that an invocation told is one that it told. -/
theorem exists_own_identifier (h : ∃ id, (n, .identified id) ∈ told) :
    ∃ id, (n, .identified id) ∈ told ∧ AuditCall.lastIdentifier (ownCalls n told) = some id := by
  obtain ⟨id, hmem⟩ := h
  have hown : AuditCall.identified id ∈ ownCalls n told :=
    List.mem_map.mpr ⟨_, List.mem_filter.mpr ⟨hmem, by simp⟩, rfl⟩
  cases hlast : AuditCall.lastIdentifier (ownCalls n told) with
  | none =>
    have hnone := List.findSome?_eq_none_iff.mp hlast _ (List.mem_reverse.mpr hown)
    cases hnone
  | some last =>
    obtain ⟨call, hcall, hidentifier⟩ := List.exists_of_findSome?_eq_some hlast
    obtain ⟨entry, hentry, rfl⟩ := List.mem_map.mp (List.mem_reverse.mp hcall)
    obtain ⟨k, call⟩ := entry
    obtain ⟨hmem', hk⟩ := List.mem_filter.mp hentry
    obtain rfl : k = n := by simpa using hk
    cases call with
    | identified id' =>
      obtain rfl := Option.some.inj hidentifier
      exact ⟨_, hmem', rfl⟩
    | stepStarted | stepEnded | anomaly => cases hidentifier

/-- If only one invocation has told anything, all that was told is its own. -/
theorem ownCalls_eq_allCalls (h : ∀ entry ∈ told, entry.1 = n) :
    ownCalls n told = allCalls told := by
  rw [ownCalls, allCalls, List.filter_eq_self.mpr fun entry hentry => by simpa using h entry hentry]

/-- **Since an invocation began** nobody else has told anything, if each event belongs to the
last that has begun. -/
theorem own_of_lastBegun {front back rest : List (Nat × AuditCall)} {id : String}
    (hlast : ∀ before n call after, told = before ++ (n, call) :: after → call.identifier? = none →
      lastBegun before = some n)
    (htold : told = front ++ (m, .identified id) :: back ++ rest) (hback : NoneBegun back) :
    ∀ entry ∈ back, entry.1 = m := by
  rintro ⟨k, call⟩ hentry
  obtain ⟨more, others, rfl⟩ := List.append_of_mem hentry
  have hk := hlast (front ++ (m, .identified id) :: more) k call (others ++ rest) (by simp [htold])
      (hback _ hentry)
  rw [lastBegun_of_last fun entry h => hback entry (List.mem_append_left _ h)] at hk
  exact (Option.some.inj hk).symm

/-- **Invocations that can be told apart.** Let each invocation begin with its identifier, and let
the identifiers of different invocations have different marks. Then the lines of a verbose console
name their own invocations if and only if, at every event after that, the invocation that it belongs
to is the last that has begun. -/
theorem namesOwn_iff_last_begun (hbegun : WellBegun told)
    (hmarks : ∀ n m id id', (n, .identified id) ∈ told → (m, .identified id') ∈ told →
      markOf (some id) = markOf (some id') → n = m) :
    NamesOwn true told ↔ ∀ before n call after, told = before ++ (n, call) :: after →
    call.identifier? = none →
      lastBegun before = some n := by
  simp only [NamesOwn, linesAfter_eq, linesFor_inj]
  constructor
  · rintro hnames before n call after rfl hcall
    have hwrites : Writes true call := by
      cases call with
      | identified id => cases hcall
      | stepStarted | stepEnded | anomaly => trivial
    -- The invocation has told its identifier, so somebody was the last to do so.
    have hown : ownCalls n before ≠ [] := by
      intro hnothing
      have hfirst := (hbegun before n call after rfl).mpr hnothing
      rw [hcall] at hfirst
      cases hfirst
    obtain ⟨front, own, back, hbefore, -⟩ := hbegun.exists_identified hown
    have hidentified : ∃ id, (n, .identified id) ∈ before := ⟨own, by simp [hbefore]⟩
    obtain ⟨id, hid, hlastOwn⟩ := exists_own_identifier hidentified
    rcases noneBegun_or_exists_last before with hnone | ⟨front, m, id', back, rfl, hback⟩
    · cases hnone _ hid
    · rw [lastBegun_of_last hback]
      have hmark := (hnames _ n call after rfl hwrites).1
      rw [allCalls_append_cons, lastIdentifier_of_last (noneBegun_allCalls hback), hlastOwn]
        at hmark
      rw [hmarks m n id' id (by simp) (List.mem_append_left _ hid) hmark]
  · rintro hlast before n call after rfl hwrites
    have hcall : call.identifier? = none := by
      cases call with
      | identified id => cases hwrites
      | stepStarted | stepEnded | anomaly => rfl
    have hn := hlast before n call after rfl hcall
    rcases noneBegun_or_exists_last before with hnone | ⟨front, m, id, back, rfl, hback⟩
    · rw [lastBegun_of_noneBegun hnone] at hn
      cases hn
    · rw [lastBegun_of_last hback] at hn
      obtain rfl := Option.some.inj hn
      have hfront : ownCalls m front = [] :=
        (hbegun front m (.identified id) (back ++ (m, call) :: after) (by simp)).mp rfl
      have hback' : ∀ entry ∈ back, entry.1 = m := own_of_lastBegun hlast rfl hback
      rw [allCalls_append_cons, lastIdentifier_of_last (noneBegun_allCalls hback),
        sinceIdentified_of_last (noneBegun_allCalls hback), ownCalls_append,
          ownCalls_cons_self, hfront,
        ownCalls_eq_allCalls hback', lastIdentifier_of_last (noneBegun_allCalls hback),
          List.nil_append]
      exact ⟨rfl, fun step _ _ _ _ => (lastStart_identified_cons step id _).symm⟩

/-! ## §3 Two invocations whose lines are mixed up -/

/-- A pipeline of one step, whose unit suspends itself once. -/
def pausingPipeline (route : Route) (name : String) : Pipeline :=
  { route, steps := [⟨name, "async_echo", [], ""⟩] }

/-- A service with two such pipelines, which everyone may use. -/
def pausingService : Service where
  table :=
    { pipelines :=
        { pipelines := [(⟨"desk", "first"⟩, pausingPipeline ⟨"desk", "first"⟩ "a"),
            (⟨"desk", "second"⟩, pausingPipeline ⟨"desk", "second"⟩ "b")]
          units := [("async_echo", some (Units.probe "async_echo" (Units.suspending Units.echo)))] }
      gate := .ofEntries [(⟨"desk", "first"⟩, .everyone), (⟨"desk", "second"⟩, .everyone)] }

/-- A dispatcher that tells a console what happens. -/
def consoleDispatcher : Dispatcher where
  hooks := { audit := some ⟨fun _ => "console", fun _ _ => none⟩ }
  newId := fun _ => "id"

/-- A request comes in for each pipeline, the second one while the unit of the
first one is suspended. -/
def crossingEvents : List Event :=
  [.arrives { route := ⟨"desk", "first"⟩, correlationId := some "aaaaaaaa-1" },
    .arrives { route := ⟨"desk", "second"⟩, correlationId := some "bbbbbbbb-2" },
    .proceeds 0, .proceeds 1]

/-- What the console is told of the two. -/
theorem told_crossing :
    (consoleDispatcher.traffic pausingService crossingEvents).state.world.audited =
    [(0, .identified "aaaaaaaa-1"), (0, .stepStarted "a" 0 [(.text "uses", .text "async_echo")]),
      (1, .identified "bbbbbbbb-2"), (1, .stepStarted "b" 0 [(.text "uses", .text "async_echo")]),
      (0, .stepEnded "a" 1 none []), (1, .stepEnded "b" 1 none [])] := rfl

theorem wellBegun_crossing :
    WellBegun (consoleDispatcher.traffic pausingService crossingEvents).state.world.audited := by
  rw [told_crossing]
  intro before n call after h
  simp only [List.cons_eq_append_iff, List.cons.injEq, List.nil_eq, List.append_eq_nil_iff,
    reduceCtorEq, and_false, Prod.mk.injEq, exists_false, or_false] at h
  -- One case for each event.
  rcases h with ⟨rfl, ⟨rfl, rfl⟩, -⟩ | ⟨_, rfl, ⟨rfl, ⟨rfl, rfl⟩, -⟩ | ⟨_, rfl,
    ⟨rfl, ⟨rfl, rfl⟩, -⟩ | ⟨_, rfl,
      ⟨rfl, ⟨rfl, rfl⟩, -⟩ | ⟨_, rfl, ⟨rfl, ⟨rfl, rfl⟩, -⟩ | ⟨_, rfl, ⟨rfl, ⟨rfl, rfl⟩, -⟩⟩⟩⟩⟩⟩
  all_goals simp [AuditCall.identifier?, ownCalls]

/-- **Lines name other invocations**: each invocation begins with its identifier, and yet the end of
the first one's step is written under the identifier of the second one. -/
theorem not_forall_namesOwn :
    ¬ ∀ (d : Dispatcher) (service : Service) (events : List Event), service.world.trail = [] →
        WellBegun (d.traffic service events).state.world.audited →
        NamesOwn true (d.traffic service events).state.world.audited := by
  intro h
  have hnames := h consoleDispatcher pausingService crossingEvents rfl wellBegun_crossing
  rw [told_crossing] at hnames
  have hended := hnames [_, _, _, _] 0 (.stepEnded "a" 1 none []) [_] rfl
  rw [linesAfter_eq, linesFor_inj] at hended
  have hmark : markOf (some "bbbbbbbb-2") = markOf (some "aaaaaaaa-1") := (hended trivial).1
  exact absurd hmark (by decide)

end Console

end Switchyard
