import Switchyard.Claims
import Switchyard.Text.Sorted

/-!
# Policies

One policy per route. A route is open to everyone, or it requires an authenticated caller whose
claims meet the required permissions and roles: all of them, or at least one.
-/

namespace Switchyard

/-- How several requirements combine. -/
inductive Quantifier
  | all
  | any
  deriving DecidableEq, Repr, Inhabited

def Quantifier.word : Quantifier → String
  | .all => "all"
  | .any => "any"

def Quantifier.words : List (String × Quantifier) := [("all", .all), ("any", .any)]

def Quantifier.ofWord? (word : String) : Option Quantifier :=
  (Quantifier.words.find? (·.1 == word)).map (·.2)

/-- The policy of one route. -/
structure Policy where
  unauthenticated : Bool := false
  permissions : List String := []
  roles : List String := []
  mode : Quantifier := .all
  deriving Inhabited, Repr

namespace Policy

/-- The policy of a route that everyone may use. -/
def everyone : Policy := { unauthenticated := true }

/-- Whether the policy names any permission or role. -/
def isRestricted (policy : Policy) : Bool := !policy.permissions.isEmpty || !policy.roles.isEmpty

/-- Whether the claims of an authenticated caller meet the requirements. -/
def isMetBy (policy : Policy) (claims : Claims) : Bool :=
  !policy.isRestricted ||
    match policy.mode with
    | .all =>
      policy.permissions.all claims.permissions.contains && policy.roles.all claims.roles.contains
    | .any =>
      policy.permissions.any claims.permissions.contains || policy.roles.any claims.roles.contains

def describe (policy : Policy) : String :=
  if policy.unauthenticated then "unauthenticated"
  else if !policy.isRestricted then "authenticated"
  else
    let parts :=
      Text.sortedSet policy.permissions ++ (Text.sortedSet policy.roles).map ("role:" ++ ·)
    policy.mode.word ++ "-of(" ++ Text.joined ", " parts ++ ")"

def check (fields : Entries) : Checked Policy :=
  Checked.join (Checked.join (Checked.join (Checked.join (.ok fun u p r m => ⟨u, p, r, m⟩)
    (Form.withDefault fields "unauthenticated" false Form.truth))
    (Form.withDefault fields "permissions" [] Form.textSet))
    (Form.withDefault fields "roles" [] Form.textSet))
    (Form.withDefault fields "match" .all (Form.choice Quantifier.words))

end Policy

end Switchyard
