import Switchyard.Proofs.Dispatch.Mediation
import Switchyard.Proofs.Engine.Failures
import Switchyard.Proofs.Settings.Served

/-!
# Access as the settings say

Who may use a route is what the settings say about its pipeline, and nothing else: a pipeline that
says nothing is denied to everyone, an open one to nobody, and any other one to whoever is not known
or lacks what it requires.

Main statement: `denied_iff_settings_deny`.
-/

namespace Switchyard

/-! ## §1 What the settings say -/

namespace AccessSettings

/-- The settings require something: a permission or a role. -/
def Requires (access : AccessSettings) : Prop := access.permissions ≠ [] ∨ access.roles ≠ []

/-- **Claims have what is required**: everything, or at least one thing. -/
def SatisfiedBy (access : AccessSettings) (mode : Quantifier) (claims : Claims) : Prop :=
  match mode with
  | .all =>
    (∀ p ∈ access.permissions, p ∈ claims.permissions) ∧ ∀ r ∈ access.roles, r ∈ claims.roles
  | .any =>
    (∃ p ∈ access.permissions, p ∈ claims.permissions) ∨ ∃ r ∈ access.roles, r ∈ claims.roles

end AccessSettings

/-- The caller is known: there are claims, with a subject that is not empty. -/
def IsKnown (caller : Option Claims) : Prop :=
  ∃ claims subject, caller = some claims ∧ claims.subject = some subject ∧ subject ≠ ""

/-- **Settings deny a pipeline to a caller**: they do not say who may use it, or they do not open it
to everyone and the caller is not known or lacks what they require. The mode counts where they do
not name one themselves. -/
def PipelineSettings.Denies (pipeline : PipelineSettings) (mode : Quantifier)
    (caller : Option Claims) : Prop :=
  match pipeline.access with
  | none => True
  | some access => access.unauthenticated = false ∧
      (¬ IsKnown caller ∨
        access.Requires ∧ ¬ ∃ claims, caller = some claims ∧
          access.SatisfiedBy (access.mode.getD mode) claims)

/-! ## §2 The policy of a pipeline -/

theorem Claims.hasSubject_iff {claims : Claims} :
    claims.hasSubject = true ↔ IsKnown (some claims) := by
  unfold Claims.hasSubject IsKnown
  cases h : claims.subject with
  | none => simp [h]
  | some subject => simp [h]

/-- A route without a policy is denied to everyone. -/
theorem Gate.check_of_absent {gate : Gate} {route : Route} {caller : Option Claims}
    (h : gate.policyOf? route = none) : (gate.check route caller).allowed = false := by
  simp [check, h]

/-- A policy denies its route to whoever is not known or does not meet it, unless the route
is open to everyone. -/
theorem Gate.check_denies_iff {gate : Gate} {route : Route} {caller : Option Claims}
    {policy : Policy} (h : gate.policyOf? route = some policy) :
    (gate.check route caller).allowed = false ↔
      policy.unauthenticated = false ∧
        ∀ claims, caller = some claims → IsKnown caller → policy.isMetBy claims = false := by
  unfold check
  rw [h]
  cases hopen : policy.unauthenticated with
  | true => simp [hopen]
  | false =>
    cases caller with
    | none => simp [hopen]
    | some claims =>
      cases hsubject : claims.hasSubject <;> cases hmet : policy.isMetBy claims <;>
        simp [hopen, hsubject, hmet, ← Claims.hasSubject_iff]

namespace Settings

variable {settings : Settings} {access : AccessSettings} {claims : Claims}

theorem isRestricted_policy_iff : (settings.policy access).isRestricted = true ↔
    access.Requires := by
  simp [Policy.isRestricted, policy, AccessSettings.Requires]

/-- The policy of settings is met by claims that have what is required, and by all
claims if nothing is. -/
theorem isMetBy_policy_iff :
    (settings.policy access).isMetBy claims = true ↔
      ¬ access.Requires ∨ access.SatisfiedBy
        (access.mode.getD settings.engine.defaultMode) claims := by
  unfold Policy.isMetBy
  rw [Bool.or_eq_true, Bool.not_eq_true', Bool.eq_false_iff, Ne, isRestricted_policy_iff]
  -- What is left is to read the lists of the policy in its mode.
  unfold AccessSettings.SatisfiedBy
  cases hmode : access.mode.getD settings.engine.defaultMode <;> simp [policy, hmode]

/-- The entry of a pipeline in the gate, if the settings say who may use it. -/
def entryOf (settings : Settings) (pipeline : PipelineSettings) : Option (Route × Policy) :=
  pipeline.access.map fun access => (pipeline.route, settings.policy access)

theorem entryOf_eq_some_iff {pipeline : PipelineSettings} {route : Route} {policy : Policy} :
    settings.entryOf pipeline = some (route, policy) ↔
      pipeline.route = route ∧ pipeline.access.map settings.policy = some policy := by
  cases h : pipeline.access <;> simp [entryOf, h]

/-- The entries of a gate come under routes of the pipelines, in the same order. -/
theorem routes_entries_sublist {pipelines : List PipelineSettings} :
    ((pipelines.filterMap settings.entryOf).map (·.1)).Sublist (pipelines.map (·.route)) := by
  induction pipelines with
  | nil => simp
  | cons first rest ih =>
    cases hentry : settings.entryOf first with
    | none =>
      rw [List.filterMap_cons_none hentry]
      exact ih.cons _
    | some entry =>
      rw [List.filterMap_cons_some hentry, List.map_cons, List.map_cons,
        ← (entryOf_eq_some_iff.mp hentry).1]
      exact ih.cons_cons _

/-- **The gate of settings** has the policies of the pipelines that say who may use them. -/
theorem policyOf?_gate {pipeline : PipelineSettings}
    (hdistinct : (settings.pipelines.map (·.route)).Nodup) (h : pipeline ∈ settings.pipelines) :
    settings.gate.policyOf? pipeline.route = pipeline.access.map settings.policy := by
  have hgate : settings.gate = .ofEntries (settings.pipelines.filterMap settings.entryOf) := rfl
  refine Option.ext fun policy => ?_
  rw [hgate, Gate.policyOf?, Gate.ofEntries,
    RouteMap.find?_ofList_iff (hdistinct.sublist routes_entries_sublist), List.mem_filterMap]
  constructor
  · rintro ⟨p, hp, hentry⟩
    obtain ⟨hroute, hpolicy⟩ := entryOf_eq_some_iff.mp hentry
    -- Only the pipeline itself has its route.
    obtain rfl : p = pipeline := List.inj_on_of_nodup_map hdistinct hp h hroute
    exact hpolicy
  · intro hpolicy
    exact ⟨pipeline, h, entryOf_eq_some_iff.mpr ⟨rfl, hpolicy⟩⟩

/-- **What the gate of settings decides** about a caller of one of their pipelines. -/
theorem check_gate_iff {pipeline : PipelineSettings} {caller : Option Claims}
    (hdistinct : (settings.pipelines.map (·.route)).Nodup) (h : pipeline ∈ settings.pipelines) :
    (settings.gate.check pipeline.route caller).allowed = false ↔
      pipeline.Denies settings.engine.defaultMode caller := by
  have hpolicy := policyOf?_gate hdistinct h
  unfold PipelineSettings.Denies
  cases haccess : pipeline.access with
  | none =>
    rw [haccess] at hpolicy
    simp [Gate.check_of_absent hpolicy]
  | some access =>
    rw [haccess] at hpolicy
    rw [Gate.check_denies_iff hpolicy]
    refine and_congr Iff.rfl ?_
    cases caller with
    | none => simp [IsKnown]
    | some claims =>
      have hmet : (settings.policy access).isMetBy claims = false ↔ access.Requires ∧
          ¬ access.SatisfiedBy (access.mode.getD settings.engine.defaultMode) claims := by
        rw [← Bool.not_eq_true, isMetBy_policy_iff, not_or, not_not]
      -- A known caller is denied exactly if the claims do not meet the policy.
      by_cases hknown : IsKnown (some claims) <;> simp [hknown, hmet]

end Settings

/-! ## §3 Denials -/

namespace Dispatcher

variable {d : Dispatcher} {service : Service} {request : Request} {off : Bool}
  {states : List Service} {s : Service} {outputs : Outputs} {id : Option String}

/-- **Nobody but a caller who is denied is told so**: what a run fails with names a step, and that
it is late is another failure. -/
theorem denied_of_denial {pipeline : Pipeline} (hserved : asksFor service request = some pipeline)
    (h : (d.handle request service).Ends off states s
      (.ok { outcome := .failed Failure.denial outputs, correlationId := id })) :
    (decides service request).allowed = false := by
  by_contra hdenied
  have hallowed : (decides service request).allowed = true := by simpa using hdenied
  obtain ⟨u, result, hcourse, hresult⟩ := (handle_ends_iff_of_allowed hserved hallowed).mp ⟨s, h⟩
  -- No run ends with the denial, since it has no step to name.
  have hrun : ∀ {off : Bool} {w v : World} {ts : List World} {ended : Except Raised Outcome},
      ((d.engineOf service).run pipeline (d.invocationOf service request) w).Ends off ts v ended →
        .ok { outcome := .failed Failure.denial outputs, correlationId := id } ≠
          d.answered (d.idOf service request) (some ended) := by
    intro off w v ts ended hends hanswered
    cases ended with
    | error e => cases hanswered
    | ok outcome =>
      obtain ⟨rfl, -⟩ := Response.mk.inj (Except.ok.inj hanswered)
      obtain ⟨-, step, -, hname, -⟩ := Engine.names_of_run_failed hends
      cases hname
  generalize states.map (·.world) = worlds at hcourse
  cases hcourse with
  | unlimited hlimit hends => exact hrun hends hresult
  | inTime hlimit hpassed hends => exact hrun hends hresult
  | passed hlimit hpassed => cases hresult
  | expired hlimit hpassed hoff hwaits => cases hresult

/-- **Access is as the settings say**: while the table that was built from settings is served,
a request for a pipeline that they declare is denied exactly if they deny it to the caller.
Such a request is refused, and no other one is answered as it is. What the settings say about
other pipelines does not matter: other settings that say the same about who may use this route
decide in the same way. -/
theorem denied_iff_settings_deny {settings : Settings} {catalog : Catalog} {hooks : Hooks}
    {newId : Nat → String} {cache cache' : SourceCache} {d : Dispatcher} {start service : Service}
    (hserve : settings.serve catalog hooks newId cache = (.ok (d, start), cache'))
    (htable : service.current = start.table) {pipeline : PipelineSettings}
    (hpipeline : pipeline ∈ settings.pipelines) {request : Request}
    (hroute : request.route = pipeline.route) :
    ((decides service request).allowed = false ↔
      pipeline.Denies settings.engine.defaultMode request.credentials.resolve) ∧
    (pipeline.Denies settings.engine.defaultMode request.credentials.resolve →
      d.Refuses service request Failure.denial) ∧
    (∀ off states s r, (d.handle request service).Ends off states s r →
      ((∃ outputs id, r = .ok { outcome := .failed Failure.denial outputs, correlationId := id }) ↔
        pipeline.Denies settings.engine.defaultMode request.credentials.resolve)) ∧
    ∀ (other : Settings) (catalog' : Catalog) (hooks' : Hooks) (newId' : Nat → String)
        (cache₁ cache₂ : SourceCache) (d' : Dispatcher) (service' : Service),
      other.serve catalog' hooks' newId' cache₁ = (.ok (d', service'), cache₂) →
        other.engine.defaultMode = settings.engine.defaultMode →
          ∀ pipeline' ∈ other.pipelines, pipeline'.route = pipeline.route →
            pipeline'.access = pipeline.access →
            (decides service' request).allowed = (decides service request).allowed := by
  obtain ⟨hgate, hserved⟩ := Settings.serve_routes hserve
  obtain ⟨served, hfind⟩ := hserved pipeline hpipeline
  have hasks : asksFor service request = some served := by rw [asksFor, htable, hroute, hfind]
  have hdecides : (decides service request).allowed = false ↔
      pipeline.Denies settings.engine.defaultMode request.credentials.resolve := by
    rw [decides, htable, hgate, hroute]
    exact Settings.check_gate_iff (Settings.distinct_of_serve hserve) hpipeline
  refine ⟨hdecides, ?_, ?_, ?_⟩
  · intro hdenies
    exact refuses_of_denied hasks (hdecides.mpr hdenies)
  · intro off states s r hends
    constructor
    · rintro ⟨outputs, id, rfl⟩
      exact hdecides.mp (denied_of_denial hasks hends)
    · intro hdenies
      rw [handle_of_denied hasks (hdecides.mpr hdenies)] at hends
      exact ⟨[], _, (Activity.ends_done_iff.mp hends).2.2⟩
  · intro other catalog' hooks' newId' cache₁ cache₂ d' service' hother hmode pipeline' hmem
      hroute' haccess
    obtain ⟨hgate', -⟩ := Settings.serve_routes hother
    have hcurrent : service'.current = service'.table := by
      obtain ⟨table, -, -, rfl⟩ := Settings.serve_ok hother
      rfl
    have hdecides' : (decides service' request).allowed = false ↔
        pipeline.Denies settings.engine.defaultMode request.credentials.resolve := by
      rw [decides, hcurrent, hgate', hroute, ← hroute',
        Settings.check_gate_iff (Settings.distinct_of_serve hother) hmem, hmode,
          PipelineSettings.Denies, haccess]
      exact Iff.rfl
    exact Bool.eq_iff_iff.mpr (not_iff_not.mp (by simpa using hdecides'.trans hdecides.symm))

/-- A pipeline for callers who may open or are keepers. -/
def openVault : PipelineSettings where
  route := ⟨"vault", "open"⟩
  access := some { permissions := ["open"], roles := ["keeper"], mode := some .any }

/-- Settings with that pipeline, and with one that nobody may use. -/
def vaultSettings : Settings where
  engine := { timeout := none }
  pipelines := [openVault, { route := ⟨"vault", "break"⟩ }]

/-- The table that serves both pipelines. -/
def vaultTable : ServedTable where
  pipelines :=
    { pipelines := [(⟨"vault", "open"⟩, { route := ⟨"vault", "open"⟩ }),
        (⟨"vault", "break"⟩, { route := ⟨"vault", "break"⟩ })]
      units := [] }
  gate := .ofEntries [(⟨"vault", "open"⟩,
    { permissions := ["open"], roles := ["keeper"], mode := .any })]

theorem serve_vaultSettings :
    vaultSettings.serve {} {} (fun _ => "id") {} =
      (.ok ({ newId := fun _ => "id" }, { table := vaultTable }), {}) := rfl

/-- What access comes to for a keeper, who may open the vault, and for a guest, who is denied. -/
theorem denied_iff_vaultSettings_deny :
    ((decides { table := vaultTable } ⟨⟨"vault", "open"⟩,
        .known (some { subject := some "kim", roles := ["keeper"] }), .null, none, none⟩).allowed =
          false ↔
      openVault.Denies .all (some { subject := some "kim", roles := ["keeper"] })) ∧
    ({ newId := fun _ => "id" } : Dispatcher).Refuses { table := vaultTable }
      ⟨⟨"vault", "open"⟩, .known (some { subject := some "guest" }), .null, none, none⟩
        Failure.denial := by
  refine ⟨(denied_iff_settings_deny serve_vaultSettings rfl (List.mem_cons_self ..) rfl).1,
    (denied_iff_settings_deny serve_vaultSettings rfl (List.mem_cons_self ..) rfl).2.1
      ⟨rfl, .inr ⟨?_, ?_⟩⟩⟩
  · exact .inl (by simp)
  · rintro ⟨claims, hguest, h⟩
    obtain rfl := Option.some.inj hguest
    simp [AccessSettings.SatisfiedBy] at h

end Dispatcher

end Switchyard
