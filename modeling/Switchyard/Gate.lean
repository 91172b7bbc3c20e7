import Switchyard.Failure
import Switchyard.Log
import Switchyard.Policy
import Switchyard.Route
import Switchyard.Text.Quoted

/-!
# The authorization gate

The gate decides from its table of policies and the caller's claims alone. A route without a policy
is denied to everyone. Every denial carries a reason for operators; a caller only learns that
permission was denied.
-/

namespace Switchyard

/-- What the gate decides, and why. -/
structure Decision where
  allowed : Bool
  reason : String
  deriving DecidableEq, Repr

/-- The table of policies. -/
structure Gate where
  policies : RouteMap Policy
  deriving Inhabited

namespace Gate

/-- The gate that denies everything. -/
def empty : Gate := ⟨[]⟩

/-- The gate of some policies; a later policy of a route replaces an earlier one. -/
def ofEntries (entries : List (Route × Policy)) : Gate := ⟨RouteMap.ofList entries⟩

def policyOf? (gate : Gate) (route : Route) : Option Policy := gate.policies.find? route

def size (gate : Gate) : Nat := gate.policies.length

/-- The lines that are logged when a gate is made: requirements of an open route never count. -/
def warnings (gate : Gate) : List LogLine :=
  gate.policies.filterMap fun (route, policy) =>
    if policy.unauthenticated && policy.isRestricted then
      some ⟨"authorization.gate", .warning,
        "Route " ++ route.text ++
          " is unauthenticated; its permission/role requirements are ignored"⟩
    else none

/-- Whether a caller may use a route. -/
def check (gate : Gate) (route : Route) (claims : Option Claims) : Decision :=
  match gate.policyOf? route with
  | none => ⟨false, "no authorization policy for " ++ route.text⟩
  | some policy =>
    if policy.unauthenticated then ⟨true, "route is unauthenticated"⟩
    else
      match claims with
      | none => ⟨false, "missing or invalid claims for " ++ route.text⟩
      | some claims =>
        if !claims.hasSubject then ⟨false, "missing or invalid claims for " ++ route.text⟩
        else
          let subject := Text.quoted (claims.subject.getD "")
          if policy.isMetBy claims then
            ⟨true, subject ++ " satisfies " ++ policy.describe⟩
          else
            ⟨false, "claims of " ++ subject ++ " do not satisfy " ++ policy.describe ++
              " for " ++ route.text⟩

def displayed (gate : Gate) : String := "AuthorizationGate(policies=" ++ toString gate.size ++ ")"

end Gate

end Switchyard
