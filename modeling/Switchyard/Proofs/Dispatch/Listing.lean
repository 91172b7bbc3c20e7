import Switchyard.Proofs.Dispatch.Disclosure
import Switchyard.Proofs.Pipeline.Reported

/-!
# What the listing of routes tells

The listing describes the policy of a route in words, and the gate decides by the same policy. The
words and the decisions are found in different ways, so that the words are true has to be shown for
every policy: for open ones that require something all the same, for those that require nothing, and
for both ways in which requirements combine.

Main statement: `routeSummaries_tell_truth`.
-/

namespace Switchyard

/-! ## §1 Routes in order -/

namespace Route

/-- **A route comes before another**: by interface, and by method among those of one interface. -/
def Before (a b : Route) : Prop :=
  a.interface < b.interface ∨ a.interface = b.interface ∧ a.method < b.method

variable {a b c : Route}

/-- Of two texts that do not come one before the other in either way, each is the other. -/
theorem text_eq_of_not_lt {s t : String} (hst : ¬ s < t) (hts : ¬ t < s) : s = t :=
  String.le_antisymm (String.not_lt.mp hts) (String.not_lt.mp hst)

theorem before_trichotomy (a b : Route) : a.Before b ∨ a = b ∨ b.Before a := by
  by_cases hab : a.interface < b.interface
  · exact .inl (.inl hab)
  by_cases hba : b.interface < a.interface
  · exact .inr (.inr (.inl hba))
  have hinterface := text_eq_of_not_lt hab hba
  -- Within an interface the methods decide.
  by_cases hab' : a.method < b.method
  · exact .inl (.inr ⟨hinterface, hab'⟩)
  by_cases hba' : b.method < a.method
  · exact .inr (.inr (.inr ⟨hinterface.symm, hba'⟩))
  exact .inr (.inl (Route.mk.injEq .. ▸ ⟨hinterface, text_eq_of_not_lt hab' hba'⟩))

theorem Before.trans (hab : a.Before b) (hbc : b.Before c) : a.Before c := by
  rcases hab with hab | ⟨hab, hab'⟩ <;> rcases hbc with hbc | ⟨hbc, hbc'⟩
  · exact .inl (String.lt_trans hab hbc)
  · exact .inl (hbc ▸ hab)
  · exact .inl (hab ▸ hbc)
  · exact .inr ⟨hab.trans hbc, String.lt_trans hab' hbc'⟩

theorem not_before_self : ¬ a.Before a := by
  rintro (h | ⟨-, h⟩) <;> exact String.lt_irrefl _ h

/-- Routes are sorted by this order. -/
theorem precedes_iff : a.precedes b = true ↔ ¬ b.Before a := by
  unfold precedes Before
  split_ifs with h
  · simp [h]
  · rw [decide_eq_true_eq]
    constructor
    · rintro hlt (hgt | ⟨heq, -⟩)
      · exact String.lt_irrefl _ (String.lt_trans hlt hgt)
      · exact h heq.symm
    · intro hnot
      by_contra hlt
      exact h (text_eq_of_not_lt hlt fun hgt => hnot (.inl hgt))

theorem pairwise_sorted (routes : List Route) : (sorted routes).Pairwise fun a b =>
    ¬ b.Before a := by
  have hsorted : (sorted routes).Pairwise fun a b => a.precedes b = true := by
    apply List.pairwise_mergeSort
    · intro a b c hab hbc
      rw [precedes_iff] at hab hbc ⊢
      intro hca
      rcases before_trichotomy a b with h | rfl | h
      · exact hbc (hca.trans h)
      · exact hbc hca
      · exact hab h
    · intro a b
      rw [Bool.or_eq_true, precedes_iff, precedes_iff, ← not_and_or]
      rintro ⟨hba, hab⟩
      exact not_before_self (hba.trans hab)
  exact hsorted.imp precedes_iff.mp

/-- Different routes are sorted so that each comes before all later ones. -/
theorem pairwise_sorted_of_nodup {routes : List Route} (h : routes.Nodup) :
    (sorted routes).Pairwise Before := by
  have hnodup : (sorted routes).Nodup := (List.mergeSort_perm routes precedes).nodup_iff.mpr h
  refine ((pairwise_sorted routes).and hnodup).imp ?_
  rintro a b ⟨hnot, hne⟩
  exact (before_trichotomy a b).resolve_right (not_or.mpr ⟨hne, hnot⟩)

end Route

/-! ## §2 The words for a policy -/

namespace Policy

variable {policy : Policy} {claims : Claims}

/-- Requirements are told by a dash, which no other word for a policy has there. -/
theorem getElem?_describe_of_isRestricted (hclosed : policy.unauthenticated = false)
    (h : policy.isRestricted = true) : policy.describe.toList[3]? = some '-' := by
  cases hmode : policy.mode <;> simp [describe, hclosed, h, hmode, Quantifier.word]

theorem describe_eq_unauthenticated_iff :
    policy.describe = "unauthenticated" ↔ policy.unauthenticated = true := by
  constructor
  · intro hwords
    by_contra hopen
    have hclosed : policy.unauthenticated = false := by simpa using hopen
    cases hrestricted : policy.isRestricted with
    | false => simp [describe, hclosed, hrestricted] at hwords
    | true => simpa [hwords] using getElem?_describe_of_isRestricted hclosed hrestricted
  · intro hopen
    simp [describe, hopen]

theorem describe_eq_authenticated_iff :
    policy.describe = "authenticated" ↔ policy.unauthenticated = false ∧
      policy.isRestricted = false := by
  constructor
  · intro hwords
    have hclosed : policy.unauthenticated = false := by
      rw [← Bool.not_eq_true]
      intro hopen
      simp [describe, hopen] at hwords
    refine ⟨hclosed, ?_⟩
    by_contra hrestricted
    simpa [hwords] using getElem?_describe_of_isRestricted hclosed (by simpa using hrestricted)
  · rintro ⟨hclosed, hfree⟩
    simp [describe, hclosed, hfree]

/-- No policy is described by the word for routes that have none. -/
theorem describe_ne_denied : policy.describe ≠ "denied" := by
  intro hwords
  cases hopen : policy.unauthenticated with
  | true => simp [describe, hopen] at hwords
  | false =>
    cases hrestricted : policy.isRestricted with
    | false => simp [describe, hopen, hrestricted] at hwords
    | true => simpa [hwords] using getElem?_describe_of_isRestricted hopen hrestricted

/-! ## §3 Who meets a policy -/

/-- A caller with everything that a policy names. -/
def holder (policy : Policy) : Claims where
  subject := some "holder"
  permissions := policy.permissions
  roles := policy.roles

/-- A caller who is known and has nothing else. -/
def stranger : Claims := { subject := some "stranger" }

theorem isMetBy_of_not_isRestricted (h : policy.isRestricted = false) :
    policy.isMetBy claims = true := by
  simp [isMetBy, h]

/-- What requires something has an element in one of its lists. -/
theorem exists_of_isRestricted (h : policy.isRestricted = true) :
    (∃ p, p ∈ policy.permissions) ∨ ∃ r, r ∈ policy.roles := by
  have hsome : policy.permissions ≠ [] ∨ policy.roles ≠ [] := by simpa [isRestricted] using h
  exact hsome.imp (List.exists_mem_of_ne_nil _) (List.exists_mem_of_ne_nil _)

theorem isMetBy_holder : policy.isMetBy policy.holder = true := by
  cases hrestricted : policy.isRestricted with
  | false => exact isMetBy_of_not_isRestricted hrestricted
  | true =>
    cases hmode : policy.mode with
    | all => simp [isMetBy, hmode, holder]
    | any => simpa [isMetBy, hmode, holder, hrestricted] using exists_of_isRestricted hrestricted

theorem not_isMetBy_stranger (h : policy.isRestricted = true) :
    policy.isMetBy stranger = false := by
  have hsome := exists_of_isRestricted h
  cases hmode : policy.mode with
  | any => simp [isMetBy, h, hmode, stranger]
  | all =>
    simp only [isMetBy, h, hmode, stranger, Bool.not_true, Bool.false_or, Bool.and_eq_false_iff,
      List.all_eq_false]
    rcases hsome with ⟨p, hp⟩ | ⟨r, hr⟩
    · exact .inl ⟨p, hp, by simp⟩
    · exact .inr ⟨r, hr, by simp⟩

end Policy

/-! ## §4 Who may use a route -/

namespace Gate

variable {gate : Gate} {route : Route} {caller : Option Claims} {policy : Policy}

/-- The words of the listing for who may use a route. -/
def authorization (gate : Gate) (route : Route) : String :=
  match gate.policyOf? route with
  | some policy => policy.describe
  | none => "denied"

/-- Whom a route with a policy is open to. -/
theorem check_allows_iff (h : gate.policyOf? route = some policy) :
    (gate.check route caller).allowed = true ↔
      policy.unauthenticated = true ∨ ∃ claims, caller = some claims ∧ IsKnown caller ∧
        policy.isMetBy claims = true := by
  rw [← Bool.not_eq_false, check_denies_iff h, not_and_or, Bool.not_eq_false]
  refine or_congr Iff.rfl ?_
  push Not
  simp only [Bool.not_eq_false]

/-- A caller who has everything that a policy names may use its route. -/
theorem check_allows_holder (h : gate.policyOf? route = some policy) :
    (gate.check route (some policy.holder)).allowed = true :=
  (check_allows_iff h).mpr (.inr ⟨_, rfl, ⟨_, _, rfl, rfl, by decide⟩, Policy.isMetBy_holder⟩)

/-- Nobody who is not known may use a route that is not open to everyone. -/
theorem check_denies_nobody (h : gate.policyOf? route = some policy)
    (hclosed : policy.unauthenticated = false) : (gate.check route none).allowed = false := by
  rw [check_denies_iff h]
  exact ⟨hclosed, fun claims hnone => by cases hnone⟩

/-- Being known is not enough for a route that requires something. -/
theorem check_denies_stranger (h : gate.policyOf? route = some policy)
    (hclosed : policy.unauthenticated = false) (hrestricted : policy.isRestricted = true) :
    (gate.check route (some Policy.stranger)).allowed = false := by
  rw [check_denies_iff h]
  refine ⟨hclosed, fun claims hcaller _ => ?_⟩
  obtain rfl := Option.some.inj hcaller
  exact Policy.not_isMetBy_stranger hrestricted

variable (gate route)

/-- **The word for routes that nobody may use** stands where everyone is denied. -/
theorem authorization_denied_iff :
    gate.authorization route = "denied" ↔ ∀ caller, (gate.check route caller).allowed = false := by
  unfold authorization
  cases hpolicy : gate.policyOf? route with
  | none => simp [check_of_absent hpolicy]
  | some policy =>
    refine iff_of_false Policy.describe_ne_denied fun hall => ?_
    cases (check_allows_holder hpolicy).symm.trans (hall _)

/-- **The word for open routes** stands where everyone is allowed, also those who are not known. -/
theorem authorization_unauthenticated_iff :
    gate.authorization route = "unauthenticated" ↔
      ∀ caller, (gate.check route caller).allowed = true := by
  unfold authorization
  cases hpolicy : gate.policyOf? route with
  | none => simp [check_of_absent hpolicy]
  | some policy =>
    simp only [Policy.describe_eq_unauthenticated_iff]
    constructor
    · intro hopen caller
      exact (check_allows_iff hpolicy).mpr (.inl hopen)
    · intro hall
      by_contra hopen
      cases (check_denies_nobody hpolicy (by simpa using hopen)).symm.trans (hall none)

/-- **The word for routes that require nothing else** stands where those who are known are
allowed, and no others. -/
theorem authorization_authenticated_iff :
    gate.authorization route = "authenticated" ↔
      ∀ caller, (gate.check route caller).allowed = true ↔ IsKnown caller := by
  unfold authorization
  cases hpolicy : gate.policyOf? route with
  | none =>
    refine iff_of_false (by decide) fun hall => ?_
    have hallowed := (hall (some Policy.stranger)).mpr ⟨_, _, rfl, rfl, by decide⟩
    rw [check_of_absent hpolicy] at hallowed
    cases hallowed
  | some policy =>
    simp only [Policy.describe_eq_authenticated_iff]
    constructor
    · rintro ⟨hclosed, hfree⟩ caller
      rw [check_allows_iff hpolicy]
      constructor
      · rintro (hopen | ⟨claims, -, hknown, -⟩)
        · cases hclosed.symm.trans hopen
        · exact hknown
      · intro hknown
        obtain ⟨claims, -, hcaller, -⟩ := id hknown
        exact .inr ⟨claims, hcaller, hknown, Policy.isMetBy_of_not_isRestricted hfree⟩
    · intro hall
      have hclosed : policy.unauthenticated = false := by
        rw [← Bool.not_eq_true]
        intro hopen
        -- An open route is open to nobody in particular, too.
        obtain ⟨claims, -, hnone, -⟩ := (hall none).mp ((check_allows_iff hpolicy).mpr (.inl hopen))
        cases hnone
      refine ⟨hclosed, ?_⟩
      rw [← Bool.not_eq_true]
      intro hrestricted
      have hallowed := (hall (some Policy.stranger)).mpr ⟨_, _, rfl, rfl, by decide⟩
      cases (check_denies_stranger hpolicy hclosed hrestricted).symm.trans hallowed

/-- **Any other words** stand where some of those who are known are allowed and some are denied. -/
theorem known_divided_of_authorization (hdenied : gate.authorization route ≠ "denied")
    (hopen : gate.authorization route ≠ "unauthenticated")
    (hknown : gate.authorization route ≠ "authenticated") :
    (∃ caller, IsKnown caller ∧ (gate.check route caller).allowed = true) ∧
      ∃ caller, IsKnown caller ∧ (gate.check route caller).allowed = false := by
  unfold authorization at hdenied hopen hknown
  cases hpolicy : gate.policyOf? route with
  | none => simp [hpolicy] at hdenied
  | some policy =>
    simp only [hpolicy, Ne, Policy.describe_eq_unauthenticated_iff,
      Policy.describe_eq_authenticated_iff, not_and, Bool.not_eq_true, Bool.not_eq_false]
        at hopen hknown
    exact ⟨⟨some policy.holder, ⟨_, _, rfl, rfl, by decide⟩, check_allows_holder hpolicy⟩,
      ⟨some Policy.stranger, ⟨_, _, rfl, rfl, by decide⟩,
        check_denies_stranger hpolicy hopen (hknown hopen)⟩⟩

end Gate

/-! ## §5 The listing -/

/-- **A summary tells the truth** about a pipeline behind a gate: its route, how many steps it has,
and who may use it. -/
structure RouteSummary.TellsTruth (summary : RouteSummary) (pipeline : Pipeline)
    (gate : Gate) : Prop where
  route : summary.route = pipeline.route
  steps : summary.steps = pipeline.steps.length
  denied : summary.authorization = "denied" ↔
    ∀ caller, (gate.check pipeline.route caller).allowed = false
  unauthenticated : summary.authorization = "unauthenticated" ↔
    ∀ caller, (gate.check pipeline.route caller).allowed = true
  authenticated : summary.authorization = "authenticated" ↔
    ∀ caller, (gate.check pipeline.route caller).allowed = true ↔ IsKnown caller
  divided : summary.authorization ≠ "denied" → summary.authorization ≠ "unauthenticated" →
    summary.authorization ≠ "authenticated" →
      (∃ caller, IsKnown caller ∧ (gate.check pipeline.route caller).allowed = true) ∧
        ∃ caller, IsKnown caller ∧ (gate.check pipeline.route caller).allowed = false

/-- A summary with the words of the gate for the route of a pipeline tells the truth about it. -/
theorem RouteSummary.tellsTruth_of_authorization (pipeline : Pipeline) (gate : Gate) :
    TellsTruth ⟨pipeline.route, pipeline.steps.length, gate.authorization pipeline.route⟩
      pipeline gate where
  route := rfl
  steps := rfl
  denied := gate.authorization_denied_iff _
  unauthenticated := gate.authorization_unauthenticated_iff _
  authenticated := gate.authorization_authenticated_iff _
  divided := gate.known_divided_of_authorization _

namespace RouteMap

variable {α : Type} {table entries : RouteMap α} {route : Route}

/-- A route that is new to a table comes last in it. -/
theorem put_of_notMem {x : α} (h : route ∉ table.routes) :
    table.put route x = table ++ [(route, x)] := by
  induction table with
  | nil => rfl
  | cons entry rest ih =>
    obtain ⟨hfirst, hrest⟩ := not_or.mp (mt List.mem_cons.mpr h)
    rw [put, if_neg (Ne.symm hfirst), ih hrest, List.cons_append]

theorem foldl_put_of_nodup (h : (table ++ entries).routes.Nodup) :
    entries.foldl (fun table entry => table.put entry.1 entry.2) table = table ++ entries := by
  induction entries generalizing table with
  | nil => simp
  | cons entry rest ih =>
    have hnew : entry.1 ∉ table.routes := by
      rw [routes, List.map_append, List.map_cons] at h
      exact fun hmem => (List.nodup_append.mp h).2.2 _ hmem _ List.mem_cons_self rfl
    rw [List.foldl_cons, put_of_notMem hnew, ih (by simpa using h), List.append_assoc,
      List.singleton_append]

/-- Entries with different routes are a table as they are. -/
theorem ofList_of_nodup (h : entries.routes.Nodup) : ofList entries = entries := by
  rw [← List.nil_append entries] at h
  exact foldl_put_of_nodup h

end RouteMap

namespace PipelineTable

variable {catalog catalog' : Catalog} {pipelines : List Pipeline} {reserved : List String}
  {table : PipelineTable}

/-- A built table has the routes of its pipelines, each once and in order. -/
theorem routes_of_build (h : build catalog pipelines reserved = (.ok table, catalog')) :
    table.routes.Perm (pipelines.map (·.route)) ∧ table.routes.Pairwise Route.Before := by
  obtain ⟨hfind, units, -, rfl⟩ := build_ok h
  have hdistinct : (pipelines.map (·.route)).Nodup := (PipelineProblem.find_eq_nil_iff.mp hfind).2
  have hroutes : RouteMap.routes (pipelines.map fun p => (p.route, p)) =
      pipelines.map (·.route) := by
    simp [RouteMap.routes, Function.comp_def]
  rw [routes, RouteMap.ofList_of_nodup (hroutes ▸ hdistinct), hroutes]
  exact ⟨List.mergeSort_perm _ _, Route.pairwise_sorted_of_nodup hdistinct⟩

end PipelineTable

namespace Service

variable {service : Service} {catalog catalog' : Catalog} {pipelines : List Pipeline}
  {reserved : List String}

/-- The listing has the words of the gate for each route. -/
theorem routeSummaries_eq :
    service.routeSummaries = service.current.pipelines.routes.map fun route =>
    ⟨route, ((service.current.pipelines.find? route).map (·.steps.length)).getD 0,
      service.current.gate.authorization route⟩ := rfl

/-- **The listing of routes tells the truth.** While a dispatcher serves a table that was built from
pipelines, the listing has the route of each of them exactly once, sorted by interface and then by
method, and what it says about a route is true: the number of steps of its pipeline; `denied`
exactly if the gate denies everyone, `unauthenticated` exactly if it allows everyone,
`authenticated` exactly if it allows those who are known and no others; and whenever it says
anything else, some of those who are known are allowed and some are denied. -/
theorem routeSummaries_tell_truth
    (hbuild : PipelineTable.build catalog pipelines reserved =
      (.ok service.current.pipelines, catalog')) :
    (service.routeSummaries.map (·.route)).Perm (pipelines.map (·.route)) ∧
    service.routeSummaries.Pairwise (fun a b => a.route.Before b.route) ∧
    ∀ summary ∈ service.routeSummaries, ∃ pipeline ∈ pipelines,
      summary.TellsTruth pipeline service.current.gate := by
  obtain ⟨hperm, hsorted⟩ := PipelineTable.routes_of_build hbuild
  rw [routeSummaries_eq]
  refine ⟨?_, ?_, ?_⟩
  · rw [List.map_map, Function.comp_def, List.map_id']
    exact hperm
  · rw [List.pairwise_map]
    exact hsorted
  · intro summary hsummary
    obtain ⟨route, hroute, rfl⟩ := List.mem_map.mp hsummary
    obtain ⟨pipeline, hpipeline, rfl⟩ := List.mem_map.mp (hperm.mem_iff.mp hroute)
    have hfind := (PipelineTable.find?_iff_of_build hbuild).mpr ⟨hpipeline, rfl⟩
    rw [hfind]
    exact ⟨pipeline, hpipeline, RouteSummary.tellsTruth_of_authorization pipeline _⟩

/-- Three pipelines, not in the order of their routes. -/
def deskPipelines : List Pipeline :=
  [{ route := ⟨"desk", "open"⟩ }, { route := ⟨"desk", "lost"⟩ }, { route := ⟨"bell", "ring"⟩ }]

/-- A service with these pipelines: everyone may open the desk, though its policy names a role, to
ring the bell takes a role, and nobody is lost. -/
def deskService : Service where
  table :=
    { pipelines := { pipelines := deskPipelines.map fun p => (p.route, p), units := [] }
      gate := .ofEntries [(⟨"bell", "ring"⟩, { roles := ["porter"], mode := .any }),
        (⟨"desk", "open"⟩, { unauthenticated := true, roles := ["porter"] })] }

/-- The listing of the desk is in order and tells the truth. -/
theorem routeSummaries_tell_truth_deskService :
    PipelineTable.build {} deskPipelines = (.ok deskService.current.pipelines, {}) ∧
    deskService.routeSummaries.Pairwise (fun a b => a.route.Before b.route) ∧
    ∀ summary ∈ deskService.routeSummaries,
      ∃ pipeline ∈ deskPipelines, summary.TellsTruth pipeline deskService.current.gate := by
  have hbuild : PipelineTable.build {} deskPipelines = (.ok deskService.current.pipelines, {}) :=
    rfl
  exact ⟨hbuild, (routeSummaries_tell_truth hbuild).2⟩

end Service

end Switchyard
