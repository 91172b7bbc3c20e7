import Switchyard.Proofs.Dispatch.Listing

/-!
# Having more never loses access

Policies ask for permissions and roles, and never for their absence. So a caller who has at least
what another has may use every route that the other may use. And a policy that asks for all of its
requirements allows nobody whom it would not allow if it asked for one of them: where nothing is
required both ways of asking are content, and otherwise one requirement is among all of them.

Main statement: `authorization_monotone`.
-/

namespace Switchyard

/-! ## §1 What callers have -/

/-- The permissions of a caller; a caller without claims has none. -/
def heldPermissions (caller : Option Claims) : List String := (caller.map (·.permissions)).getD []

/-- The roles of a caller; a caller without claims has none. -/
def heldRoles (caller : Option Claims) : List String := (caller.map (·.roles)).getD []

/-- **A caller has at least what another has**: a subject if the other has one, and all permissions
and roles of the other. -/
structure HasAtLeast (caller other : Option Claims) : Prop where
  known : IsKnown other → IsKnown caller
  permissions : ∀ p ∈ heldPermissions other, p ∈ heldPermissions caller
  roles : ∀ r ∈ heldRoles other, r ∈ heldRoles caller

theorem HasAtLeast.refl (caller : Option Claims) : HasAtLeast caller caller :=
  ⟨id, fun _ => id, fun _ => id⟩

/-! ## §2 What policies ask for -/

namespace Policy

variable {policy : Policy} {claims claims' : Claims}

/-- A policy that asks for the same in another way. -/
def inMode (policy : Policy) (mode : Quantifier) : Policy := { policy with mode }

@[simp] theorem mode_inMode (mode : Quantifier) : (policy.inMode mode).mode = mode := rfl

@[simp] theorem permissions_inMode (mode : Quantifier) :
    (policy.inMode mode).permissions = policy.permissions := rfl

@[simp] theorem roles_inMode (mode : Quantifier) : (policy.inMode mode).roles = policy.roles := rfl

/-- Asking for everything: also where nothing is required, this is what the
claims have to contain. -/
theorem isMetBy_of_all (h : policy.mode = .all) :
    policy.isMetBy claims = true ↔
      (∀ p ∈ policy.permissions, p ∈ claims.permissions) ∧ ∀ r ∈ policy.roles,
        r ∈ claims.roles := by
  unfold isMetBy isRestricted
  rw [h]
  constructor
  · intro hmet
    rw [Bool.or_eq_true] at hmet
    rcases hmet with hfree | hall
    · -- What requires nothing has empty lists.
      obtain ⟨hpermissions, hroles⟩ : policy.permissions = [] ∧ policy.roles = [] := by
        simpa using hfree
      simp [hpermissions, hroles]
    · simpa using hall
  · rintro ⟨hpermissions, hroles⟩
    rw [Bool.or_eq_true]
    apply Or.inr
    simpa using ⟨hpermissions, hroles⟩

/-- Asking for one requirement: it is enough that there is none. -/
theorem isMetBy_of_any (h : policy.mode = .any) :
    policy.isMetBy claims = true ↔
      (policy.permissions = [] ∧ policy.roles = []) ∨
        (∃ p ∈ policy.permissions, p ∈ claims.permissions) ∨ ∃ r ∈ policy.roles,
          r ∈ claims.roles := by
  unfold isMetBy isRestricted
  simp [h]

/-- Claims that contain others meet every policy that these meet. -/
theorem isMetBy_mono (hpermissions : ∀ p ∈ claims.permissions, p ∈ claims'.permissions)
    (hroles : ∀ r ∈ claims.roles, r ∈ claims'.roles) (hmet : policy.isMetBy claims = true) :
    policy.isMetBy claims' = true := by
  cases hmode : policy.mode with
  | all =>
    obtain ⟨hp, hr⟩ := (isMetBy_of_all hmode).mp hmet
    apply (isMetBy_of_all hmode).mpr
    exact ⟨fun p hmem => hpermissions p (hp p hmem), fun r hmem => hroles r (hr r hmem)⟩
  | any =>
    apply (isMetBy_of_any hmode).mpr
    rcases (isMetBy_of_any hmode).mp hmet with hnone | ⟨p, hmem, hp⟩ | ⟨r, hmem, hr⟩
    · exact .inl hnone
    · exact .inr (.inl ⟨p, hmem, hpermissions p hp⟩)
    · exact .inr (.inr ⟨r, hmem, hroles r hr⟩)

/-- **Everything is at least one thing**, and if there is nothing, both ways of
asking are content. -/
theorem isMetBy_any_of_isMetBy_all (hmet : (policy.inMode .all).isMetBy claims = true) :
    (policy.inMode .any).isMetBy claims = true := by
  rw [isMetBy_of_all (mode_inMode .all)] at hmet
  rw [isMetBy_of_any (mode_inMode .any)]
  simp only [permissions_inMode, roles_inMode] at hmet ⊢
  by_cases hnone : policy.permissions = [] ∧ policy.roles = []
  · exact .inl hnone
  · -- One of the lists has a first element, and the claims have it.
    apply Or.inr
    rcases not_and_or.mp hnone with hsome | hsome
    · obtain ⟨p, hp⟩ := List.exists_mem_of_ne_nil _ hsome
      exact .inl ⟨p, hp, hmet.1 p hp⟩
    · obtain ⟨r, hr⟩ := List.exists_mem_of_ne_nil _ hsome
      exact .inr ⟨r, hr, hmet.2 r hr⟩

end Policy

/-! ## §3 What gates decide -/

namespace Gate

variable {gate gate' : Gate} {route : Route} {policy policy' : Policy}
  {caller other : Option Claims}

/-- A caller who has at least what another has, under a policy that the claims of both of them
meet alike or better. -/
theorem check_allows_of_allows (h : gate.policyOf? route = some policy)
    (h' : gate'.policyOf? route = some policy')
    (hopen : policy.unauthenticated = true → policy'.unauthenticated = true)
    (hmet : ∀ claims, policy.isMetBy claims = true → policy'.isMetBy claims = true)
    (hmore : HasAtLeast caller other) (hallowed : (gate.check route other).allowed = true) :
    (gate'.check route caller).allowed = true := by
  apply (check_allows_iff h').mpr
  rcases (check_allows_iff h).mp hallowed with hfree | ⟨claims, rfl, hknown, hmeets⟩
  · exact .inl (hopen hfree)
  · -- The other caller is known, so this one is, too, and has claims.
    obtain ⟨claims', subject, rfl, hsubject, hsome⟩ := hmore.known hknown
    apply Or.inr
    refine ⟨claims', rfl, ⟨claims', subject, rfl, hsubject, hsome⟩, ?_⟩
    exact Policy.isMetBy_mono hmore.permissions hmore.roles (hmet claims hmeets)

/-- **Authorization is monotone**: a caller who has at least what another has may use every
route that the other may use; claims that meet a policy which asks for all of its requirements
meet the one which asks for any of them; and so whoever may use a route under the first policy
may use it under the second. -/
theorem authorization_monotone :
    (∀ (gate : Gate) (route : Route) (caller other : Option Claims), HasAtLeast caller other →
      (gate.check route other).allowed = true → (gate.check route caller).allowed = true) ∧
    (∀ (policy : Policy) (claims : Claims),
      (policy.inMode .all).isMetBy claims = true → (policy.inMode .any).isMetBy claims = true) ∧
    (∀ (gate gate' : Gate) (route : Route) (policy : Policy) (caller : Option Claims),
      gate.policyOf? route = some (policy.inMode .all) →
      gate'.policyOf? route = some (policy.inMode .any) →
      (gate.check route caller).allowed = true → (gate'.check route caller).allowed = true) := by
  refine ⟨?callers, ?policies, ?gates⟩
  case callers =>
    intro gate route caller other hmore hallowed
    cases hpolicy : gate.policyOf? route with
    | none => simp [check_of_absent hpolicy] at hallowed
    | some policy => exact check_allows_of_allows hpolicy hpolicy id (fun _ => id) hmore hallowed
  case policies =>
    intro policy claims
    exact Policy.isMetBy_any_of_isMetBy_all
  case gates =>
    intro gate gate' route policy caller hall hany hallowed
    apply check_allows_of_allows hall hany ?_ ?_ (.refl caller) hallowed
    · -- Open routes are open in either mode.
      exact id
    · exact fun claims => Policy.isMetBy_any_of_isMetBy_all

/-! An editor may do whatever a reader may. -/

def readingPolicy : Policy := { permissions := ["read"], roles := ["member"] }

def reader : Claims := { subject := some "ann", permissions := ["read"], roles := ["member"] }

def editor : Claims :=
  { subject := some "bob", permissions := ["write", "read"], roles := ["editor", "member"] }

/-- The gate of one route with a policy. -/
def readingGate (mode : Quantifier) : Gate :=
  .ofEntries [(⟨"notes", "open"⟩, readingPolicy.inMode mode)]

theorem editor_hasAtLeast_reader : HasAtLeast (some editor) (some reader) where
  known := fun _ => ⟨editor, "bob", rfl, rfl, by decide⟩
  permissions := by simp [heldPermissions, reader, editor]
  roles := by simp [heldRoles, reader, editor]

/-- Also under the policy that asks for any requirement, the reader is allowed, since under the
other one the reader is. -/
theorem authorization_monotone_reader :
    ((readingGate .all).check ⟨"notes", "open"⟩ (some reader)).allowed = true ∧
      ((readingGate .all).check ⟨"notes", "open"⟩ (some editor)).allowed = true ∧
      (readingPolicy.inMode .all).isMetBy reader = true ∧
        (readingPolicy.inMode .any).isMetBy reader = true ∧
      ((readingGate .any).check ⟨"notes", "open"⟩ (some reader)).allowed = true := by
  have hallowed : ((readingGate .all).check ⟨"notes", "open"⟩ (some reader)).allowed = true := by
    decide
  have hmet : (readingPolicy.inMode .all).isMetBy reader = true := by decide
  exact ⟨hallowed, authorization_monotone.1 _ _ _ _ editor_hasAtLeast_reader hallowed, hmet,
    authorization_monotone.2.1 _ _ hmet,
      authorization_monotone.2.2 _ _ _ readingPolicy _ rfl rfl hallowed⟩

end Gate

end Switchyard
