import Switchyard.Form.Field

/-!
# Claims

Who a caller is and what the caller may do, as a transport says. Decoded tokens come in loose
shapes: the subject may be called `sub`, and permissions may be the words of a text called `scope`.
What a token holds beside these is kept as attributes.
-/

namespace Switchyard

/-- The identity and the claims of a caller. -/
structure Claims where
  subject : Option String := none
  permissions : List String := []
  roles : List String := []
  attributes : Entries := []
  deriving Inhabited

namespace Claims

/-- Whether the caller has an identity: a subject that is not empty. -/
def hasSubject (claims : Claims) : Bool :=
  match claims.subject with
  | some s => s != ""
  | none => false

/-- Claims from data of the right form. -/
def check (subject permissions roles attributes : Value) : Checked Claims :=
  Checked.join (Checked.join (Checked.join (Checked.join (.ok fun s p r a => ⟨s, p, r, a⟩)
    (Checked.within (.field "subject") (Form.optional Form.text subject)))
    (Checked.within (.field "permissions") (Form.textSet permissions)))
    (Checked.within (.field "roles") (Form.textSet roles)))
    (Checked.within (.field "attributes") (Form.dictionary attributes))

/-- The texts that a field of a token holds: none, the field itself, or each of its
parts as it is shown. -/
def strings (v : Value) : Except Raised (List String) :=
  match v with
  | .atom .null => .ok []
  | .atom (.text s) => .ok [s]
  | .atom (.bytes b) => .ok (b.map fun byte => toString byte.toNat)
  | .list items | .tuple items => .ok (items.map (·.shown .empty))
  | .map entries => .ok (entries.map (·.1.shown))
  | v =>
    .error (.refused "TypeError"
      ("expected a string or a list of strings, got " ++ v.typeName .empty))

def takeField (name : String) (fields : Entries) : Option Value × Entries :=
  (fields.field? name, fields.drop (.text name))

/-- The subject of a token: `subject` if it says something, else `sub`. -/
def takeSubject (fields : Entries) : Value × Entries :=
  let (subject, fields) := takeField "subject" fields
  let subject := subject.getD .null
  if Store.empty.isPresent subject then (subject, fields)
  else
    let (sub, fields) := takeField "sub" fields
    (sub.getD .null, fields)

/-- The claims that a decoded token makes; no token makes no claims. -/
def ofToken (token : Value) : Except Raised (Option Claims) :=
  match token with
  | .atom .null => .ok none
  | .map fields => do
    let (subject, fields) := takeSubject fields
    let (permissions, fields) := takeField "permissions" fields
    let permissions ← strings (permissions.getD .null)
    let (scope, fields) := takeField "scope" fields
    let scopeWords := match scope with
      | some (.atom (.text s)) => Text.words s
      | _ => []
    let (roles, fields) := takeField "roles" fields
    let roles ← strings (roles.getD .null)
    let claims ← (check subject (.list ((permissions ++ scopeWords).map .text))
      (.list (roles.map .text)) (.map fields)).raise
    pure (some claims)
  | v => .error (.refused "TypeError" ("claims must be a mapping, got " ++ v.typeName .empty))

end Claims

end Switchyard
