import Switchyard.Proofs.Dispatch.Trail
import Switchyard.Proofs.Settings.Access
import Switchyard.Proofs.Text.Sorted

/-!
# What a denial discloses

An audit hook is told the reason of a denial, and the reason names what the policy requires. So two
gates that deny a request can be told apart by it, unless they deny it on the same grounds.

Main statements: the grounds of a denial can be read from its reason (`Grounds.reason_inj`), and
denials are told alike exactly if their grounds are the same (`denials_told_alike_iff`).
-/

namespace Switchyard

/-! ## §1 Grounds -/

/-- **The grounds of a denial**: the route has no policy, the policy requires a caller who is known,
or the claims of the caller lack all or any of what the policy lists. -/
inductive Grounds
  | noPolicy
  | noCaller
  | unmet (mode : Quantifier) (listing : String)
  deriving DecidableEq

/-- What a policy requires, as it is listed in reasons. -/
def Policy.listing (policy : Policy) : String :=
  Text.joined ", " (Text.sortedSet policy.permissions ++
    (Text.sortedSet policy.roles).map ("role:" ++ ·))

/-- Policies that require the same are listed alike. -/
theorem Policy.listing_congr {policy policy' : Policy}
    (hpermissions : ∀ p, p ∈ policy.permissions ↔ p ∈ policy'.permissions)
    (hroles : ∀ r, r ∈ policy.roles ↔ r ∈ policy'.roles) : policy.listing = policy'.listing := by
  rw [listing, listing, Text.sortedSet_eq_iff.mpr hpermissions, Text.sortedSet_eq_iff.mpr hroles]

/-- **A gate denies a route to a caller** on some grounds. -/
inductive Gate.Denies (gate : Gate) (route : Route) (caller : Option Claims) : Grounds → Prop
  | noPolicy :
      gate.policyOf? route = none → Denies gate route caller .noPolicy
  | noCaller {policy : Policy} :
      gate.policyOf? route = some policy → policy.unauthenticated = false → ¬ IsKnown caller →
      Denies gate route caller .noCaller
  | unmet {policy : Policy} {claims : Claims} :
      gate.policyOf? route = some policy → policy.unauthenticated = false → caller = some claims →
      IsKnown caller →
      policy.isMetBy claims = false → Denies gate route caller (.unmet policy.mode policy.listing)

/-! ## §2 Reasons -/

/-- The subject of a caller, as reasons name it. -/
def subjectOf (caller : Option Claims) : String := (caller.bind (·.subject)).getD ""

/-- What reasons say of the grounds. -/
def Grounds.words (caller : Option Claims) : Grounds → String
  | .noPolicy => "no authorization policy"
  | .noCaller => "missing or invalid claims"
  | .unmet mode listing =>
    "claims of " ++ Text.quoted (subjectOf caller) ++ " do not satisfy " ++
      (mode.word ++ "-of(" ++ listing ++ ")")

/-- The reason for a denial on some grounds. -/
def Grounds.reason (route : Route) (caller : Option Claims) (grounds : Grounds) : String :=
  grounds.words caller ++ " for " ++ route.text

/-- A policy that is not met requires something, and is described by what it lists. -/
theorem Policy.describe_of_not_isMetBy {policy : Policy} {claims : Claims}
    (hclosed : policy.unauthenticated = false) (hunmet : policy.isMetBy claims = false) :
    policy.describe = policy.mode.word ++ "-of(" ++ policy.listing ++ ")" := by
  have hrestricted : policy.isRestricted = true := by
    by_contra hnone
    simp [isMetBy, hnone] at hunmet
  simp [describe, hclosed, hrestricted, listing]

/-- Descriptions tell modes and lists apart. -/
theorem Quantifier.describes_inj {mode mode' : Quantifier} {listing listing' : String}
    (h : mode.word ++ "-of(" ++ listing ++ ")" = mode'.word ++ "-of(" ++ listing' ++ ")") :
    mode = mode' ∧ listing = listing' := by
  rw [String.append_left_inj, String.append_assoc, String.append_assoc] at h
  -- The words differ in their second letter.
  have hletter : (mode.word ++ ("-of(" ++ listing)).toList[1]? =
      (mode'.word ++ ("-of(" ++ listing')).toList[1]? := by
    rw [h]
  cases mode <;> cases mode' <;> simp only [Quantifier.word] at h hletter
  case all.any | any.all => simp at hletter
  case all.all | any.any => simpa using h

namespace Grounds

variable {route : Route} {caller : Option Claims} {grounds grounds' : Grounds}

/-- The letter that words for grounds of one kind begin with. -/
def letter : Grounds → Char
  | .noPolicy => 'n'
  | .noCaller => 'm'
  | .unmet .. => 'c'

theorem head?_words : (grounds.words caller).toList.head? = some grounds.letter := by
  cases grounds <;> simp [words, letter]

/-- **The grounds of a denial can be read from its reason.** -/
theorem reason_inj :
    grounds.reason route caller = grounds'.reason route caller ↔ grounds = grounds' := by
  constructor
  · intro h
    simp only [reason, String.append_left_inj] at h
    have hletter : some grounds.letter = some grounds'.letter := by
      rw [← head?_words, h, head?_words]
    cases grounds with
    | noPolicy => cases grounds' with
      | noPolicy => rfl
      | noCaller | unmet mode listing => simp [letter] at hletter
    | noCaller => cases grounds' with
      | noCaller => rfl
      | noPolicy | unmet mode listing => simp [letter] at hletter
    | unmet mode listing => cases grounds' with
      | noPolicy | noCaller => simp [letter] at hletter
      | unmet mode' listing' =>
        -- What stands around the descriptions is the same.
        simp only [words, String.append_right_inj] at h
        obtain ⟨rfl, rfl⟩ := Quantifier.describes_inj h
        rfl
  · rintro rfl
    rfl

end Grounds

namespace Gate

variable {gate : Gate} {route : Route} {caller : Option Claims} {grounds : Grounds}

/-- A gate that denies gives the reason for its grounds. -/
theorem Denies.check_eq (h : gate.Denies route caller grounds) :
    gate.check route caller = ⟨false, grounds.reason route caller⟩ := by
  cases h with
  | noPolicy hpolicy => simp [check, hpolicy, Grounds.reason, Grounds.words]
  | noCaller hpolicy hclosed hunknown =>
    cases caller with
    | none => simp [check, hpolicy, hclosed, Grounds.reason, Grounds.words]
    | some claims =>
      have hsubject : claims.hasSubject = false := by
        rw [Bool.eq_false_iff, Ne, Claims.hasSubject_iff]
        exact hunknown
      simp [check, hpolicy, hclosed, hsubject, Grounds.reason, Grounds.words]
  | @unmet policy claims hpolicy hclosed hcaller hknown hunmet =>
    subst hcaller
    have hsubject : claims.hasSubject = true := Claims.hasSubject_iff.mpr hknown
    simp [check, hpolicy, hclosed, hsubject, hunmet, Grounds.reason, Grounds.words, subjectOf,
      Policy.describe_of_not_isMetBy hclosed hunmet]

/-- A gate denies on one ground only. -/
theorem Denies.unique {grounds' : Grounds} (h : gate.Denies route caller grounds)
    (h' : gate.Denies route caller grounds') : grounds = grounds' := by
  apply Grounds.reason_inj.mp
  exact (Decision.mk.inj (h.check_eq.symm.trans h'.check_eq)).2

/-- Whatever is denied is denied on some grounds. -/
theorem exists_denies (h : (gate.check route caller).allowed = false) :
    ∃ grounds, gate.Denies route caller grounds := by
  cases hpolicy : gate.policyOf? route with
  | none => exact ⟨_, .noPolicy hpolicy⟩
  | some policy =>
    obtain ⟨hclosed, hunmet⟩ := (check_denies_iff hpolicy).mp h
    by_cases hknown : IsKnown caller
    · obtain ⟨claims, -, hcaller, -⟩ := id hknown
      exact ⟨_, .unmet hpolicy hclosed hcaller hknown (hunmet claims hcaller hknown)⟩
    · exact ⟨_, .noCaller hpolicy hclosed hknown⟩

/-- **Two gates that deny give the same reason** exactly if they deny on the same grounds. -/
theorem reason_eq_iff {gate' : Gate} (h : (gate.check route caller).allowed = false)
    (h' : (gate'.check route caller).allowed = false) :
    (gate.check route caller).reason = (gate'.check route caller).reason ↔
      ∃ grounds, gate.Denies route caller grounds ∧ gate'.Denies route caller grounds := by
  constructor
  · intro hsame
    obtain ⟨grounds, hdenies⟩ := exists_denies h
    obtain ⟨grounds', hdenies'⟩ := exists_denies h'
    rw [hdenies.check_eq, hdenies'.check_eq] at hsame
    obtain rfl := Grounds.reason_inj.mp hsame
    exact ⟨_, hdenies, hdenies'⟩
  · rintro ⟨grounds, hdenies, hdenies'⟩
    rw [hdenies.check_eq, hdenies'.check_eq]

end Gate

/-! ## §3 What the audit hook is told -/

/-- The service with another gate. -/
def Service.withGate (service : Service) (gate : Gate) : Service :=
  { service with table := { service.table with gate } }

namespace Dispatcher

variable {d : Dispatcher} {service : Service} {request : Request}
  {pipeline : Pipeline} {gate : Gate} {states : List Service} {calls : List AuditCall}
  {hook : Hook AuditCall}

@[simp] theorem asksFor_withGate :
    asksFor (service.withGate gate) request = asksFor service request := by
  cases h : service.world.surroundings.withdrawn <;>
    simp [asksFor, Service.current, Service.withGate, h]

/-- A route that is served is guarded by the gate of its table. -/
theorem decides_of_served (h : asksFor service request = some pipeline) :
    decides service request =
      service.table.gate.check request.route request.credentials.resolve := by
  cases hwithdrawn : service.world.surroundings.withdrawn with
  | false => simp [decides, Service.current, hwithdrawn]
  | true =>
    -- A table that was withdrawn serves nothing.
    rw [asksFor, Service.current, if_pos hwithdrawn] at h
    cases h

/-- **Two services tell the same** to the audit hook while a request is handled. -/
def ToldAlike (d : Dispatcher) (service service' : Service) (request : Request) : Prop :=
  ∀ states calls, Activity.Adds (·.world.audits) service (d.handle request service) states calls ↔
    Activity.Adds (·.world.audits) service' (d.handle request service') states calls

/-- What is told of a denial tells its reason. -/
theorem denialCall_inj {route : Route} {decision decision' : Decision} :
    denialCall route decision = denialCall route decision' ↔
      decision.reason = decision'.reason := by
  simp [denialCall]

/-- Of a denial an audit hook is told the identifier and the reason, at once. -/
theorem adds_audits_of_denied_iff (haudit : d.hooks.audit = some hook)
    (hserved : asksFor service request = some pipeline)
    (hdenied : (decides service request).allowed = false) :
    Activity.Adds (·.world.audits) service (d.handle request service) states calls ↔
      states = [] ∧
        calls = [.identified (d.idOf service request),
          denialCall request.route (decides service request)] := by
  have hstory : d.Handles service request false (([] : List Service).map (·.world)) .denied :=
    .denied hserved hdenied
  have htold := hstory.adds_audits haudit
  constructor
  · intro hadds
    have hatonce := hadds
    rw [handle_of_denied hserved hdenied] at hatonce
    obtain ⟨rfl, -⟩ := Activity.adds_done_iff.mp hatonce
    exact ⟨rfl, hadds.unique htold⟩
  · rintro ⟨rfl, rfl⟩
    exact htold

/-- Denials are told alike exactly if their reasons are the same. -/
theorem told_alike_iff_reasons (haudit : d.hooks.audit = some hook)
    (hserved : asksFor service request = some pipeline)
    (hdenied : (decides service request).allowed = false)
    (hdenied' : (decides (service.withGate gate) request).allowed = false) :
    d.ToldAlike service (service.withGate gate) request ↔
      (decides service request).reason = (decides (service.withGate gate) request).reason := by
  have hserved' : asksFor (service.withGate gate) request = some pipeline := by
    rw [asksFor_withGate, hserved]
  have hid : d.idOf (service.withGate gate) request = d.idOf service request := rfl
  simp only [ToldAlike, adds_audits_of_denied_iff haudit hserved hdenied,
    adds_audits_of_denied_iff haudit hserved' hdenied', hid]
  rw [← denialCall_inj]
  constructor
  · intro hsame
    simpa using (hsame [] _).mp ⟨rfl, rfl⟩
  · intro hsame states calls
    rw [hsame]

/-- Two gates of a route that is served give the same reason exactly if they deny it
on the same grounds. -/
theorem reasons_eq_iff (hserved : asksFor service request = some pipeline)
    (hdenied : (decides service request).allowed = false)
    (hdenied' : (decides (service.withGate gate) request).allowed = false) :
    (decides service request).reason = (decides (service.withGate gate) request).reason ↔
      ∃ grounds, service.table.gate.Denies request.route request.credentials.resolve grounds ∧
        gate.Denies request.route request.credentials.resolve grounds := by
  have hserved' : asksFor (service.withGate gate) request = some pipeline := by
    rw [asksFor_withGate, hserved]
  rw [decides_of_served hserved] at hdenied ⊢
  rw [decides_of_served hserved'] at hdenied' ⊢
  exact Gate.reason_eq_iff hdenied hdenied'

/-- **Denials are told alike exactly if their grounds are the same.** Let two dispatchers with an
audit hook differ in their gates only, and let both deny a request for a route that is served. Then
the audit hooks are told the same if and only if neither gate has a policy for the route, or both
require a caller who is known, or the claims of the caller meet neither policy and both policies
list the same in the same mode. -/
theorem denials_told_alike_iff (haudit : d.hooks.audit = some hook)
    (hserved : asksFor service request = some pipeline)
    (hdenied : (decides service request).allowed = false)
    (hdenied' : (decides (service.withGate gate) request).allowed = false) :
    d.ToldAlike service (service.withGate gate) request ↔
      ∃ grounds, service.table.gate.Denies request.route request.credentials.resolve grounds ∧
        gate.Denies request.route request.credentials.resolve grounds := by
  rw [told_alike_iff_reasons haudit hserved hdenied hdenied',
    reasons_eq_iff hserved hdenied hdenied']

/-- The gate with one policy, that of the guarded route, which requires permissions. -/
def guardedBy (permissions : List String) : Gate := ⟨[(⟨"desk", "guarded"⟩, { permissions })]⟩

/-- The service that serves the guarded route to those with the permissions. -/
def guardedService (permissions : List String) : Service where
  table :=
    { pipelines := { pipelines := [(⟨"desk", "guarded"⟩, { route := ⟨"desk", "guarded"⟩ })],
                     units := [] }
      gate := guardedBy permissions }

/-- The request of a guest, who has no permissions. -/
def guestRequest : Request where
  route := ⟨"desk", "guarded"⟩
  credentials := .known (some { subject := some "guest" })

/-- A guest is denied what requires permissions. -/
theorem guarded_denies_guest {permissions : List String}
    (h : Policy.isMetBy { permissions } { subject := some "guest" } = false) :
    (guardedBy permissions).Denies guestRequest.route guestRequest.credentials.resolve
      (.unmet .all (Policy.listing { permissions })) := by
  have hknown : IsKnown guestRequest.credentials.resolve := ⟨_, "guest", rfl, rfl, by decide⟩
  exact .unmet rfl rfl rfl hknown h

/-- In which order a policy lists permissions is not disclosed. -/
theorem denials_told_alike_reordered :
    clumsyDispatcher.ToldAlike (guardedService ["enter", "look"])
      ((guardedService ["enter", "look"]).withGate (guardedBy ["look", "enter"])) guestRequest := by
  have hlisting : Policy.listing { permissions := ["look", "enter"] } =
      Policy.listing { permissions := ["enter", "look"] } := by
    apply Policy.listing_congr
    · intro p
      simp [or_comm]
    · intro r
      rfl
  have hdenies : (guardedBy ["look", "enter"]).Denies guestRequest.route
      guestRequest.credentials.resolve
        (.unmet .all (Policy.listing { permissions := ["enter", "look"] })) := by
    rw [← hlisting]
    exact guarded_denies_guest rfl
  exact (denials_told_alike_iff rfl rfl rfl rfl).mpr ⟨_, guarded_denies_guest rfl, hdenies⟩

/-- **What is told of denials discloses policies**: a guest is denied by two gates that require
different permissions, and the audit hook is told which. -/
theorem not_forall_denials_told_alike :
    ¬ ∀ (d : Dispatcher) (service : Service) (request : Request) (gate : Gate),
      d.hooks.audit.isSome →
        (asksFor service request).isSome → (decides service request).allowed = false →
        (decides (service.withGate gate) request).allowed = false →
        d.ToldAlike service (service.withGate gate) request := by
  intro h
  have hsame :=
    h clumsyDispatcher (guardedService ["enter"]) guestRequest (guardedBy ["look"]) rfl rfl rfl rfl
  obtain ⟨grounds, hdenies, hdenies'⟩ :=
    (reasons_eq_iff rfl rfl rfl).mp ((told_alike_iff_reasons rfl rfl rfl rfl).mp hsame)
  have hgrounds : Grounds.unmet .all (Policy.listing { permissions := ["enter"] }) =
      .unmet .all (Policy.listing { permissions := ["look"] }) := by
    rw [(guarded_denies_guest rfl).unique hdenies, (guarded_denies_guest rfl).unique hdenies']
  simp [Policy.listing, Text.sortedSet, Text.sorted, Text.joined, List.eraseDups_cons] at hgrounds

end Dispatcher

end Switchyard
