import Switchyard.Proofs.Dispatch.Stored
import Switchyard.Proofs.Value.Held

/-!
# Literals across requests

A dispatcher serves a table whose literals are kept in containers of the store, once for all
requests. Units change in place what they are called with and what they return, and in between
callers change what they hold: whatever they have brought and whatever they were answered. If units
keep no state of their own, none of that reaches the literals. So every step finds its literals as
they were configured, and every request is answered as it would be as the first one.

Main statements: callers stay apart from the configuration (`Serves.apart`), a request is answered
as it would be if no literal was kept in a container (`answeredAlike_handle`), and every request is
handled as the first one (`handleStored_as_first`).
-/

namespace Switchyard

open Store (Pairing Apart Moves)
open Surroundings (EndAlike)
open Engine (Linked)

/-! ## §1 What is brought and what is answered -/

/-- The attributes that a caller claims, as one value. -/
def Claims.shown (claims : Option Claims) : Value := .map ((claims.map (·.attributes)).getD [])

/-- **What a request brings**: its input, and the attributes that its caller claims. -/
def Request.brought (request : Request) : Value :=
  .tuple [request.input, Claims.shown request.credentials.resolve]

/-- The data in an outcome. -/
def Outcome.told : Outcome → Value
  | .success value outputs => .tuple (value :: outputs.map (·.2))
  | .failed failure outputs => .tuple (.map failure.details :: outputs.map (·.2))

/-- The data in an error: only faults have any. -/
def Raised.told : Raised → Value
  | .fault f => .tuple [f.message, .map f.details]
  | .rejected _ | .refused _ _ | .broken _ _ | .abandoned => .tuple []

/-- **What a caller is answered**: the data of an outcome, or of an error that escaped. -/
def answerTold : Except Raised Response → Value
  | .ok response => response.outcome.told
  | .error e => e.told

section

variable {r r' : Nat → Nat → Prop} {σ τ : Store} {claims claims' : Option Claims}
  {request request' : Request}

theorem Claims.rel_restrict (h : Option.Rel (Claims.Matches r) claims claims')
    (himp : ∀ a b, σ.Leads (shown claims) a → τ.Leads (shown claims') b → r a b → r' a b) :
    Option.Rel (Claims.Matches r') claims claims' := by
  cases h with
  | none => exact .none
  | some h =>
    have hattributes := (Value.matches_map_iff.mpr h.attributes).restrict himp
    exact .some ⟨h.subject, h.permissions, h.roles, Value.matches_map_iff.mp hattributes⟩

theorem Claims.rel_self (h : ∀ a, σ.Leads (shown claims) a → r a a) :
    Option.Rel (Claims.Matches r) claims claims := by
  cases claims with
  | none => exact .none
  | some claims => exact .some ⟨rfl, rfl, rfl, Value.matches_map_iff.mp (Value.matches_self h)⟩

theorem Request.leads_input {a : Nat} (h : σ.Leads request.input a) : σ.Leads request.brought a :=
  .part (List.mem_cons_self ..) h

theorem Request.leads_claims {a : Nat} (h : σ.Leads (Claims.shown request.credentials.resolve) a) :
    σ.Leads request.brought a :=
  .part (List.mem_cons_of_mem _ (List.mem_cons_self ..)) h

/-- A request is the same under a relation that holds of all that it brings. -/
theorem Request.Matches.restrict (h : request.Matches r request')
    (himp : ∀ a b, σ.Leads request.brought a → τ.Leads request'.brought b → r a b → r' a b) :
    request.Matches r' request' where
  route := h.route
  input :=
    h.input.restrict fun a b ha hb => himp a b (Request.leads_input ha) (Request.leads_input hb)
  claims := Claims.rel_restrict h.claims fun a b ha hb =>
    himp a b (Request.leads_claims ha) (Request.leads_claims hb)

/-- **A request is the same as itself** under a relation that holds of each container that
it brings and itself. -/
theorem Request.matches_self (h : ∀ a, σ.Leads request.brought a → r a a) :
    request.Matches r request where
  route := rfl
  input := Value.matches_self fun a ha => h a (leads_input ha)
  claims := Claims.rel_self fun a ha => h a (leads_claims ha)

theorem Outputs.Matches.values {outputs outputs' : Outputs} (h : outputs.Matches r outputs') :
    List.Forall₂ (Value.Matches r) (outputs.map (·.2)) (outputs'.map (·.2)) := by
  rw [List.forall₂_map_left_iff, List.forall₂_map_right_iff]
  exact List.Forall₂.imp (fun _ _ hab => hab.2) h

/-- The same outcome tells the same. -/
theorem Outcome.Matches.told {outcome outcome' : Outcome} (h : outcome.Matches r outcome') :
    outcome.told.Matches r outcome'.told := by
  cases h with
  | success hvalue houtputs => exact Value.matches_tuple_iff.mpr (.cons hvalue houtputs.values)
  | failed hfailure _ houtputs =>
    exact Value.matches_tuple_iff.mpr
      (.cons (Value.matches_map_iff.mpr hfailure.details) houtputs.values)

theorem Raised.Matches.told {e e' : Raised} (h : e.Matches r e') : e.told.Matches r e'.told := by
  cases h with
  | fault _ hmessage hdetails =>
    exact Value.matches_tuple_iff.mpr
      (.cons hmessage (.cons (Value.matches_map_iff.mpr hdetails) .nil))
  | other hother =>
    cases e with
    | fault f => exact absurd rfl (hother f)
    | rejected _ | refused _ _ | broken _ _ | abandoned => exact Value.matches_tuple_iff.mpr .nil

/-- **The same answer** tells the same. -/
theorem answerTold_matches {x y : Except Raised Response}
    (h : Reply.Matches r (Response.Matches r) x y) :
    (answerTold x).Matches r (answerTold y) := by
  cases h with
  | ok h => exact h.outcome.told
  | error he => exact he.told

end

/-! ## §2 Dispatchers that serve -/

/-- A service that has just begun: its literals are kept in the store, and nothing else is. -/
def Service.begun (table : ServedTable) : Service where
  table := table.stored
  world := { surroundings := { store := table.base } }

namespace Dispatcher

variable {d d' : Dispatcher} {table : ServedTable} {held held' : Value}
  {service service' first plain : Service} {request request' : Request} {r : Nat → Nat → Prop}
  {base' : Store}

/-- **Dispatchers that serve** a table, and what callers hold by now. Requests are handled
one after another and bring what callers hold, who are answered. In between callers do what
they can with what they hold, and the rest of the world may become anything, as long as the
routes are not withdrawn. -/
inductive Serves (d : Dispatcher) (table : ServedTable) : Value → Service → Prop
  | begins : Serves d table (.tuple []) (.begun table)
  | handles {held : Value} {service : Service} (request : Request) : Serves d table held service →
      service.world.store.Covers held request.brought →
      Serves d table (.tuple [held, answerTold (d.handleStored request service).finish.2])
        (d.handleStored request service).finish.1
  | stirs {held held' : Value} {service : Service} (world : World) : Serves d table held service →
      Moves held service.world.store held' world.store →
      world.surroundings.withdrawn = service.world.surroundings.withdrawn → Serves d table held'
      { service with world }

/-- What callers hold pairs with itself, apart from the configuration. -/
theorem linked_self {signal : Option Nat} (h : Apart table.base held service.world.store) :
    Linked table.base table.base signal signal service.world.surroundings service.world.surroundings
      fun a b => a = b ∧ service.world.store.Leads held a where
  pairing := h.pairing
  given := rfl
  first := h.kept
  second := h.kept
  above := by
    rintro a _ ⟨rfl, ha⟩
    exact ⟨h.above a ha, h.above a ha⟩

/-- A request is the same as itself as far as its caller holds what it brings. -/
theorem matches_held {σ : Store} (hbrings : σ.Covers held request.brought) :
    request.Matches (fun a b => a = b ∧ σ.Leads held a) request :=
  Request.matches_self fun a ha => ⟨rfl, hbrings a ha⟩

/-- **One request** leaves callers apart from the configuration, and the routes
are served as before. -/
theorem apart_handleStored (hplain : table.IsPlain) (hunits : table.KeepsNoState)
    (hlimit : d.LimitIsPlain) (hstored : service.current.StoredAs table.base table)
    (h : Apart table.base held service.world.store)
    (hbrings : service.world.store.Covers held request.brought) :
    (d.handleStored request service).finish.1.world.surroundings.withdrawn =
      service.world.surroundings.withdrawn ∧
      Apart table.base (.tuple [held, answerTold (d.handleStored request service).finish.2])
        (d.handleStored request service).finish.1.world.store := by
  have hlinked : Linked table.base table.base request.signal request.signal _ _ _ := linked_self h
  -- Seen as two requests in one place, it is answered with what is paired.
  obtain ⟨r', hgo, hanswer⟩ :=
    handleStored_same hstored hstored hplain hunits rfl hlimit rfl hlinked (matches_held hbrings)
  have hlinked' := hlinked.go hgo
  have hheld : held.Matches r' held := Value.matches_self fun a ha => hgo.stores.keeps ⟨rfl, ha⟩
  have hall := Value.matches_tuple_iff.mpr (.cons hheld (.cons (answerTold_matches hanswer) .nil))
  refine ⟨hgo.withdrawn, hlinked'.first, fun a ha => ?_, fun a ha => ?_⟩
  · obtain ⟨b, hab⟩ := hlinked'.pairing.exists_of_leads hall ha
    exact (hlinked'.above hab).1
  · obtain ⟨b, hab⟩ := hlinked'.pairing.exists_of_leads hall ha
    exact (hlinked'.pairing.lt_size hab).1

/-- The table that is served reads as it was configured. -/
theorem storedAs_current (hplain : table.IsPlain) (htable : service.table = table.stored)
    (hserved : service.world.surroundings.withdrawn = false) :
    service.current.StoredAs table.base table := by
  have hcurrent : service.current = table.stored := by simp [Service.current, hserved, htable]
  exact hcurrent ▸ ServedTable.storedAs_stored hplain

/-- **Callers stay apart from the configuration**, whatever they and the units do, and the table
reads as it was configured. -/
theorem Serves.apart (hplain : table.IsPlain) (hunits : table.KeepsNoState)
    (hlimit : d.LimitIsPlain) (h : d.Serves table held service) :
    service.current.StoredAs table.base table ∧ Apart table.base held service.world.store := by
  have hserved : service.table = table.stored ∧ service.world.surroundings.withdrawn = false ∧
      Apart table.base held service.world.store := by
    induction h with
    | begins =>
      have hnothing : ∀ a, ¬ table.base.Leads (.tuple []) a := by
        intro a ha
        cases ha with
        | part hpart _ => cases hpart
      exact ⟨rfl, rfl, .refl _, fun a ha => absurd ha (hnothing a), fun a ha =>
        absurd ha (hnothing a)⟩
    | @handles held service request _ hbrings ih =>
      obtain ⟨htable, hwithdrawn, hapart⟩ := ih
      obtain ⟨hwithdrawn', hapart'⟩ :=
        apart_handleStored hplain hunits hlimit
          (storedAs_current hplain htable hwithdrawn) hapart hbrings
      exact ⟨(finish_handleStored_table d request service).1.trans htable,
        hwithdrawn'.trans hwithdrawn, hapart'⟩
    | stirs world _ hmoves hkept ih =>
      obtain ⟨htable, hwithdrawn, hapart⟩ := ih
      exact ⟨htable, hkept.trans hwithdrawn, hapart.moves hmoves⟩
  obtain ⟨htable, hwithdrawn, hapart⟩ := hserved
  exact ⟨storedAs_current hplain htable hwithdrawn, hapart⟩

/-! ## §3 Requests in two places -/

/-- What is held in two places pairs as it did, apart from the configuration in both. -/
theorem linked_led {signal signal' : Option Nat} (h : Apart table.base held service.world.store)
    (hkept : base'.Extends service'.world.store)
    (habove : ∀ b, service'.world.store.Leads held' b → base'.cells.size ≤ b)
    (hpairing : Pairing service.world.store service'.world.store r)
    (hgiven : service.world.surroundings.isGiven signal =
      service'.world.surroundings.isGiven signal') :
    Linked table.base base' signal signal' service.world.surroundings service'.world.surroundings
      fun a b => r a b ∧ service.world.store.Leads held a ∧ service'.world.store.Leads held' b where
  pairing := hpairing.led held held'
  given := hgiven
  first := h.kept
  second := hkept
  above hab := ⟨h.above _ hab.2.1, habove _ hab.2.2⟩

/-- The same request of two callers is the same as far as they hold it. -/
theorem matches_led {σ τ : Store} (hsame : request.Matches r request')
    (hbrings : σ.Covers held request.brought) (hbrings' : τ.Covers held' request'.brought) :
    request.Matches (fun a b => r a b ∧ σ.Leads held a ∧ τ.Leads held' b) request' :=
  hsame.restrict fun a b ha hb hab => ⟨hab, hbrings a ha, hbrings' b hb⟩

/-- **The steps that a request has to go through**: those of the pipeline that is
configured for its route. -/
def configured (table : ServedTable) (request : Request) : List Step :=
  ((table.pipelines.find? request.route).map (·.steps)).getD []

theorem isPlain_of_mem_configured (h : table.IsPlain) {step : Step}
    (hstep : step ∈ configured table request) : step.IsPlain := by
  unfold configured at hstep
  cases hfind : table.pipelines.find? request.route with
  | none =>
    rw [hfind] at hstep
    cases hstep
  | some pipeline =>
    rw [hfind] at hstep
    exact h.of_find? hfind step hstep

/-- **The steps as a request finds them**, one after another, as far as it is handled alone. -/
def readings (d : Dispatcher) (request : Request) (service : Service) : List Step :=
  match service.current.pipelines.find? request.route with
  | none => []
  | some pipeline =>
    let id := d.idOf service request
    Engine.readingsOfRun ⟨service.current.pipelines, d.hooks⟩ pipeline
      (invocationBy service.received request id) d.timeout.isNone
        (service.world.audit d.hooks service.received (.identified id))

/-- **Every step is found as it was configured.** -/
theorem readings_isPrefix (hplain : table.IsPlain) (hunits : table.KeepsNoState)
    (hlimit : d.LimitIsPlain) (h : d.Serves table held service)
    (hbrings : service.world.store.Covers held request.brought) :
    d.readings request service <+: configured table request := by
  obtain ⟨hstored, hapart⟩ := h.apart hplain hunits hlimit
  have hfound := hstored.rel_find? request.route
  unfold readings configured
  generalize service.current.pipelines.find? request.route = x at hfound
  generalize hz : table.pipelines.find? request.route = z at hfound
  cases hfound with
  | none => exact List.nil_prefix
  | @some pipeline configured hread =>
    obtain ⟨entry, hentry, rfl⟩ := ServedTable.exists_entry_of_find? hz
    have hlinked : Linked table.base table.base request.signal request.signal _ _ _ :=
      linked_self hapart
    have hsame := matches_held hbrings
    refine Engine.readingsOfRun_isPrefix (fun σ hσ => congrArg Pipeline.steps (hread σ hσ))
      (hplain entry hentry) (fun step hstep => (hunits entry hentry step hstep).of_units
        hstored.units_eq) ?_ ⟨hsame.input, hsame.claims, rfl⟩
    rw [World.audit_surroundings]
    exact hlinked

/-! ## §4 Every request as the first one -/

/-- **A dispatcher begun anew**, which supplies the identifiers that come next. -/
def anew (d : Dispatcher) (received : Nat) : Dispatcher :=
  { d with newId := fun n => d.newId (received + n) }

/-- The first request of a dispatcher begun anew gets the identifier that it would have got next. -/
theorem idOf_anew (hfresh : first.received = 0)
    (hid : request'.correlationId = request.correlationId) :
    (d.anew service.received).idOf first request' = d.idOf service request := by
  simp only [idOf, anew, hfresh, hid]
  rfl

/-- **Requests that are answered alike**: the answers say the same, up to where
their data is kept. -/
def AnsweredAlike (x y : Service × Except Raised Response) : Prop :=
  ∃ r, Pairing x.1.world.store y.1.world.store r ∧ Reply.Matches r (Response.Matches r) x.2 y.2

/-- **A request is answered as without stored literals**, which need no
containers to be read from. -/
theorem answeredAlike_handle (hplain : table.IsPlain) (hunits : table.KeepsNoState)
    (hlimit : d.LimitIsPlain) (h : d.Serves table held service) (htable : plain.current = table)
    (htimeout : d'.timeout = d.timeout) (hpairing : Pairing service.world.store plain.world.store r)
    (hsame : request.Matches r request') (hid : d'.idOf plain request' = d.idOf service request)
    (hsignal : service.world.surroundings.isGiven request.signal =
      plain.world.surroundings.isGiven request'.signal)
    (hbrings : service.world.store.Covers held request.brought) :
    AnsweredAlike (d.handleStored request service).finish (d'.handle request' plain).finish := by
  obtain ⟨hstored, hapart⟩ := h.apart hplain hunits hlimit
  have hstored' : plain.current.StoredAs .empty table :=
    htable ▸ ServedTable.storedAs_self hplain .empty
  -- Nothing is configured in containers there, so nothing need be spared.
  have hnone : Store.empty.Extends plain.world.store := by
    intro a c hc
    simp [Store.cell?, Store.empty] at hc
  have habove : ∀ b, plain.world.store.Leads request'.brought b → Store.empty.cells.size ≤ b :=
    fun b _ => Nat.zero_le b
  obtain ⟨r', hgo, hanswer⟩ := handleStored_same hstored hstored' hplain hunits htimeout hlimit hid
    (linked_led hapart hnone habove hpairing hsignal) (matches_led hsame hbrings fun _ => id)
  rw [← handleStored_of_plain (htable.symm ▸ hplain)]
  exact ⟨r', hgo.stores.pairing, hanswer⟩

/-- **Every request is handled as the first one**: each of its steps is found as it was configured,
so its literals are received as configured, and it is answered as the same request is that comes as
the first one to a dispatcher begun anew, whether that keeps the literals in containers or not. -/
theorem handleStored_as_first (hplain : table.IsPlain) (hunits : table.KeepsNoState)
    (hlimit : d.LimitIsPlain) (h : d.Serves table held service)
    (hfirst : (d.anew service.received).Serves table held' first) (hfresh : first.received = 0)
    (hpairing : Pairing service.world.store first.world.store r)
    (hsame : request.Matches r request') (hid : request'.correlationId = request.correlationId)
    (hsignal : service.world.surroundings.isGiven request.signal =
      first.world.surroundings.isGiven request'.signal)
    (hbrings : service.world.store.Covers held request.brought)
    (hbrings' : first.world.store.Covers held' request'.brought) :
    (d.readings request service <+: configured table request ∧
      ∀ step ∈ d.readings request service, ∀ {context σ config τ},
        Binding.resolveRecord context step.bindings σ = .ok (config, τ) →
        (Binding.map step.bindings).Received σ.cells.size τ config) ∧
    AnsweredAlike (d.handleStored request service).finish
      ((d.anew service.received).handleStored request' first).finish ∧
    AnsweredAlike (d.handleStored request service).finish
      ((d.anew service.received).handle request' (first.reload table)).finish := by
  have hreadings := readings_isPrefix hplain hunits hlimit h hbrings
  have htimeout : (d.anew service.received).timeout = d.timeout := rfl
  refine ⟨⟨hreadings, fun step hstep context σ config τ hresolve => ?_⟩, ?_, ?_⟩
  · have hstepPlain : step.IsPlain := isPlain_of_mem_configured hplain (hreadings.subset hstep)
    exact Binding.resolve_received hstepPlain (Nat.le_refl _) hresolve
  · have hlimit' : (d.anew service.received).LimitIsPlain := hlimit
    obtain ⟨hstored, hapart⟩ := h.apart hplain hunits hlimit
    obtain ⟨hstored', hapart'⟩ := hfirst.apart hplain hunits hlimit'
    obtain ⟨r', hgo, hanswer⟩ :=
      handleStored_same hstored hstored' hplain hunits htimeout hlimit (idOf_anew hfresh hid)
        (linked_led hapart hapart'.kept hapart'.above hpairing hsignal)
          (matches_led hsame hbrings hbrings')
    exact ⟨r', hgo.stores.pairing, hanswer⟩
  · exact answeredAlike_handle hplain hunits hlimit h rfl htimeout hpairing hsame
      (idOf_anew hfresh hid) hsignal hbrings

/-! A step changes the list of its configuration in place and answers with it, and then the caller
empties that list. The next request is answered as the first one was. -/

def growingStep : Step := ⟨"grow", "mutate", [("items", .literal (.list [.int 1]))], ""⟩

def growingTable : ServedTable where
  pipelines := ⟨[(⟨"svc", "grow"⟩, { route := ⟨"svc", "grow"⟩, steps := [growingStep] })],
    [("mutate", some (Units.probe "mutate" Units.mutating))]⟩
  gate := .ofEntries [(⟨"svc", "grow"⟩, .everyone)]

def growingRequest : Request := { route := ⟨"svc", "grow"⟩ }

def numbering : Dispatcher := { newId := fun n => toString n }

/-- The service after the first request. -/
def grownOnce : Service := (numbering.handleStored growingRequest (.begun growingTable)).finish.1

/-- What its caller holds. -/
def grownHeld : Value := .tuple [.tuple [],
    answerTold (numbering.handleStored growingRequest (.begun growingTable)).finish.2]

/-- The service after its caller has emptied the list. -/
def grownEmptied : Service :=
  { grownOnce with world := grownOnce.world.withStore (grownOnce.world.store.set 2 (.list [])) }

theorem growingTable_isPlain : growingTable.IsPlain := by
  refine List.forall_mem_singleton.mpr
    (List.forall_mem_singleton.mpr (.map (List.forall_mem_singleton.mpr ?_)))
  exact .literal (.list (List.forall_mem_singleton.mpr (.atom _)))

theorem growingTable_keepsNoState : growingTable.KeepsNoState :=
  List.forall_mem_singleton.mpr (List.forall_mem_singleton.mpr (Engine.keepsNoState_mutating rfl))

theorem not_leads_growingRequest {σ : Store} {a : Nat} : ¬ σ.Leads growingRequest.brought a := by
  intro h
  cases h with
  | part hpart h =>
    rcases List.mem_pair.mp hpart with rfl | rfl
    · exact Store.not_leads_atom _ h
    · cases h with
      | part hpart _ => cases hpart

theorem serves_grownEmptied : numbering.Serves growingTable grownHeld grownEmptied := by
  have honce : numbering.Serves growingTable grownHeld grownOnce :=
    .handles growingRequest .begins fun _ ha => absurd ha not_leads_growingRequest
  have hleads : grownOnce.world.store.Leads grownHeld 2 := by
    have hanswer : answerTold (numbering.handleStored growingRequest
        (.begun growingTable)).finish.2 =
        .tuple [.shared 2, .shared 2] := rfl
    rw [grownHeld, hanswer]
    exact .part (List.mem_cons_of_mem _ (List.mem_cons_self ..))
      (.part (List.mem_cons_self ..) (.here 2))
  exact .stirs _ honce (.changes hleads nofun) rfl

theorem growing_as_first :
    (numbering.readings growingRequest grownEmptied <+: configured growingTable growingRequest ∧
      ∀ step ∈ numbering.readings growingRequest grownEmptied, ∀ {context σ config τ},
        Binding.resolveRecord context step.bindings σ = .ok (config, τ) →
        (Binding.map step.bindings).Received σ.cells.size τ config) ∧
    AnsweredAlike (numbering.handleStored growingRequest grownEmptied).finish
      ((numbering.anew grownEmptied.received).handleStored growingRequest
        (.begun growingTable)).finish ∧
    AnsweredAlike (numbering.handleStored growingRequest grownEmptied).finish
      ((numbering.anew grownEmptied.received).handle growingRequest
        (Service.reload (.begun growingTable) growingTable)).finish :=
  handleStored_as_first growingTable_isPlain growingTable_keepsNoState nofun serves_grownEmptied
    .begins rfl .none (Request.matches_self (σ := .empty) fun _ ha =>
      not_leads_growingRequest ha) rfl rfl
    (fun _ ha => absurd ha not_leads_growingRequest) fun _ ha => absurd ha not_leads_growingRequest

example : numbering.readings growingRequest grownEmptied = [growingStep] := by cbv

/-- Without reading the steps, the list of the configuration itself is handed out, and every
request finds it longer. -/
example : (numbering.handle growingRequest
    (numbering.handle growingRequest (.begun growingTable)).finish.1
    ).finish.1.world.store.cell? 0 =
      some (.list [.int 1, .text "mutated", .text "mutated"]) := by cbv

end Dispatcher

end Switchyard
