import Switchyard.Dispatcher
import Switchyard.Proofs.Failure.Telling
import Switchyard.Proofs.Settings.Malformed
import Switchyard.Proofs.Value.Extension
import Switchyard.Proofs.Value.Fields

/-!
# What tokens grant

A token says which permissions and roles its holder has: under a name of each there is a text, or a
list of texts, and the words of the scope are permissions, too. Of such a token the claims are
exactly what it says. But a token is also read if there is something else under these names that has
parts: the keys of a map, the numbers of bytes and whatever a list holds are then taken as they are
shown. Such a token should be refused.

Main statements: of a token in form, what the claims have is what it grants (`mem_permissions_iff`,
`mem_roles_iff`); which tokens are read at all (`ofToken_ok_iff`); and when a token grants what it
says (`grantsAsSaid_iff`).
-/

namespace Switchyard

/-! ## §1 Words -/

namespace Text

/-- Words are what stands between blanks, where that is not empty; the open word
comes before the rest. -/
theorem go_eq (word cs : List Char) :
    words.go word cs = (cs.splitOnPPrepend isBlank word).filter (!·.isEmpty) := by
  induction cs generalizing word with
  | nil =>
    cases word with
    | nil => simp [words.go]
    | cons d word => simp [words.go]
  | cons c cs ih =>
    rw [words.go, List.splitOnPPrepend_cons_eq_if]
    by_cases hblank : isBlank c = true
    · cases word with
      | nil => simp [hblank, ih]
      | cons d word => simp [hblank, ih]
    · simp [hblank, ih]

/-- **The words of a text** are its parts between blanks, but not the empty ones. -/
theorem mem_words_iff {word text : String} :
    word ∈ words text ↔ word ≠ "" ∧ word.toList ∈ text.toList.splitOnP isBlank := by
  have hparts : words text =
      ((text.toList.splitOnP isBlank).filter (!·.isEmpty)).map String.ofList := by
    rw [words, go_eq]
    rfl
  rw [hparts, List.mem_map]
  constructor
  · rintro ⟨letters, hletters, rfl⟩
    obtain ⟨hmem, hsome⟩ := List.mem_filter.mp hletters
    rw [String.toList_ofList]
    refine ⟨?_, hmem⟩
    intro hempty
    have hnil : letters = [] := by simpa using congrArg String.toList hempty
    simp [hnil] at hsome
  · rintro ⟨hsome, hmem⟩
    refine ⟨word.toList, List.mem_filter.mpr ⟨hmem, ?_⟩, String.ofList_toList⟩
    simpa using hsome

end Text

/-! ## §2 Checks -/

theorem Checked.raise_ok_iff {α : Type} {checked : Checked α} {x : α} :
    checked.raise = .ok x ↔ checked = .ok x := by
  cases checked <;> simp [Checked.raise]

namespace Form

theorem textSet_texts (texts : List String) : textSet (.list (texts.map .text)) = .ok texts := by
  have heach : ∀ place, Checked.each text place (texts.map .text) = .ok texts := by
    induction texts with
    | nil => intro place; rfl
    | cons s rest ih =>
      intro place
      simp only [List.map_cons, Checked.each, ih]
      rfl
  exact heach 0

/-- The subject passes its check exactly if it is null or counts as a text. -/
theorem optional_text_ok_iff {v : Value} :
    (∃ s, optional text v = .ok s) ↔ v = .null ∨ ∃ k : Scalar, v = .atom k ∧ k.Textual := by
  by_cases hnull : v = .null
  · subst hnull
    exact iff_of_true ⟨none, rfl⟩ (.inl rfl)
  · have hcheck : optional text v = (text v).map some := by
      unfold optional
      split
      · exact absurd rfl hnull
      · rfl
    rw [hcheck, or_iff_right hnull, ← text_ok_iff]
    cases text v <;> simp [Except.map]

end Form

/-! ## §3 What a token says -/

namespace Claims

/-- **What a field grants**: the text that it is, or each text that it lists. -/
def Grants (field : Option Value) (s : String) : Prop :=
  match field with
  | some (.text t) => s = t
  | some (.list items) | some (.tuple items) => .text s ∈ items
  | _ => False

/-- **What the scope grants**, if it is a text: what stands between its blanks. -/
def ScopeGrants (scope : Option Value) (s : String) : Prop :=
  ∃ t, scope = some (.text t) ∧ s ≠ "" ∧ s.toList ∈ t.toList.splitOnP Text.isBlank

/-- **A field is in form**: it is not there, or null, or a text, or it lists
texts and nothing else. -/
def InForm (field : Option Value) : Prop :=
  match field with
  | none | some .null | some (.text _) => True
  | some (.list items) | some (.tuple items) => ∀ v ∈ items, ∃ s, v = .text s
  | _ => False

/-- A field that is read: besides those in form every list, bytes and maps, which
have parts as well. -/
def HasTexts (field : Option Value) : Prop :=
  match field with
  | none | some .null | some (.text _) | some (.atom (.bytes _)) | some (.list _) | some (.tuple _)
  | some (.map _) => True
  | _ => False

/-- What a token says about its subject: under `subject`, or under `sub` if there is
nothing under `subject`. -/
def saidSubject (fields : Entries) : Value :=
  let subject := (fields.field? "subject").getD .null
  if Store.empty.isPresent subject then subject else (fields.field? "sub").getD .null

/-- **A token that is read**: the subject is null or a text, permissions and roles have parts, and
all keys are texts; bytes that spell a text count as one. -/
structure IsRead (fields : Entries) : Prop where
  subject : saidSubject fields = .null ∨ ∃ k : Scalar, saidSubject fields = .atom k ∧ k.Textual
  permissions : HasTexts (fields.field? "permissions")
  roles : HasTexts (fields.field? "roles")
  keys : ∀ entry ∈ fields, entry.1.Textual

/-- **A token grants what it says.** Nobody has a permission or a role by it that it does not grant.
If its permissions or its roles are not in form, the token is refused, and every request that comes
with it is answered as if it came without claims. -/
structure GrantsAsSaid (fields : Entries) : Prop where
  permissions : ∀ claims, ofToken (.map fields) = .ok (some claims) → ∀ p ∈ claims.permissions,
    Grants (fields.field? "permissions") p ∨ ScopeGrants (fields.field? "scope") p
  roles : ∀ claims, ofToken (.map fields) = .ok (some claims) →
    ∀ r ∈ claims.roles, Grants (fields.field? "roles") r
  refused : ¬ (InForm (fields.field? "permissions") ∧ InForm (fields.field? "roles")) →
    ∃ e, ofToken (.map fields) = .error e
  unknown : ¬ (InForm (fields.field? "permissions") ∧ InForm (fields.field? "roles")) →
    ∀ (d : Dispatcher) (service : Service) (request : Request), request.credentials =
      .token (.map fields) →
      d.handle request service = d.handle { request with credentials := .known none } service

/-! ## §4 The fields of a token -/

variable {fields : Entries} {field : Option Value} {claims : Claims} {name s : String}

/-- Without a field the keys are texts exactly if they are with it. -/
theorem textual_drop_iff :
    (∀ entry ∈ fields.drop (.text name), entry.1.Textual) ↔ ∀ entry ∈ fields, entry.1.Textual := by
  constructor
  · intro h entry hentry
    by_cases hsame : entry.1.same (.text name) = true
    · rw [Scalar.same_text_iff.mp hsame]
      exact .text name
    · exact h entry (List.mem_filter.mpr ⟨hentry, by simpa using hsame⟩)
  · intro h entry hentry
    exact h entry (List.mem_filter.mp hentry).1

/-- **Taking the subject** takes the field of that name, and the other name for it if need be. -/
theorem takeSubject_cases (fields : Entries) :
    takeSubject fields = (saidSubject fields, fields.drop (.text "subject")) ∨
      takeSubject fields =
        (saidSubject fields, (fields.drop (.text "subject")).drop (.text "sub")) := by
  unfold takeSubject saidSubject
  simp only [takeField]
  by_cases hpresent : Store.empty.isPresent ((fields.field? "subject").getD .null) = true
  · simp [hpresent]
  · simp [hpresent, Entries.field?_drop]

theorem takeSubject_fst : (takeSubject fields).1 = saidSubject fields := by
  rcases takeSubject_cases fields with htake | htake <;> rw [htake]

/-- Taking the subject leaves fields of other names what they are. -/
theorem field?_takeSubject (hsubject : name ≠ "subject") (hsub : name ≠ "sub") :
    (takeSubject fields).2.field? name = fields.field? name := by
  rcases takeSubject_cases fields with htake | htake
  · rw [htake, Entries.field?_drop hsubject]
  · rw [htake, Entries.field?_drop hsub, Entries.field?_drop hsubject]

/-- What a token says beside what has a meaning of its own. -/
def attributesOf (fields : Entries) : Entries :=
  ((((takeSubject fields).2.drop (.text "permissions")).drop (.text "scope")).drop (.text "roles"))

theorem textual_attributesOf_iff :
    (∀ entry ∈ attributesOf fields, entry.1.Textual) ↔ ∀ entry ∈ fields, entry.1.Textual := by
  unfold attributesOf
  rcases takeSubject_cases fields with htake | htake <;> simp only [htake, textual_drop_iff]

/-- The permissions that the scope adds. -/
def scopeWords (scope : Option Value) : List String :=
  match scope with
  | some (.text t) => Text.words t
  | _ => []

/-- **Reading a token** field by field. -/
theorem ofToken_map : ofToken (.map fields) = (do
    let permissions ← strings ((fields.field? "permissions").getD .null)
    let roles ← strings ((fields.field? "roles").getD .null)
    let claims ← (check (saidSubject fields)
      (.list ((permissions ++ scopeWords (fields.field? "scope")).map .text))
        (.list (roles.map .text))
      (.map (attributesOf fields))).raise
    pure (some claims)) := by
  -- Taking the subject, with or without the other name for it, and the fields before it
  -- leaves a field what it was.
  have hpermissions : (takeSubject fields).2.field? "permissions" = fields.field? "permissions" :=
    field?_takeSubject (by decide) (by decide)
  have hscope : ((takeSubject fields).2.drop (.text "permissions")).field? "scope" =
      fields.field? "scope" := by
    rw [Entries.field?_drop (by decide)]
    exact field?_takeSubject (by decide) (by decide)
  have hroles : (((takeSubject fields).2.drop (.text "permissions")).drop
      (.text "scope")).field? "roles" =
      fields.field? "roles" := by
    rw [Entries.field?_drop (by decide), Entries.field?_drop (by decide)]
    exact field?_takeSubject (by decide) (by decide)
  rw [← hpermissions, ← hscope, ← hroles, ← takeSubject_fst]
  rfl

/-! ## §5 Which tokens are read -/

/-- The texts that a field in form grants are those that are taken from it. -/
theorem mem_strings_iff {texts : List String} (hform : InForm field)
    (h : strings (field.getD .null) = .ok texts) :
    s ∈ texts ↔ Grants field s := by
  -- Of a sequence of texts, what is shown of its items is these texts.
  have hitems : ∀ items : List Value, (∀ v ∈ items, ∃ t, v = .text t) →
      (s ∈ items.map (·.shown .empty) ↔ .text s ∈ items) := by
    intro items hall
    rw [List.mem_map]
    constructor
    · rintro ⟨v, hv, rfl⟩
      obtain ⟨t, rfl⟩ := hall v hv
      exact hv
    · intro hs
      exact ⟨.text s, hs, rfl⟩
  unfold InForm at hform
  split at hform
  · obtain rfl := Except.ok.inj h
    simp [Grants]
  · obtain rfl := Except.ok.inj h
    simp [Grants]
  · obtain rfl := Except.ok.inj h
    simp [Grants]
  · obtain rfl := Except.ok.inj h
    exact hitems _ hform
  · obtain rfl := Except.ok.inj h
    exact hitems _ hform
  · exact hform.elim

/-- Texts are taken from a field exactly if it has parts. -/
theorem strings_ok_iff : (∃ texts, strings (field.getD .null) = .ok texts) ↔ HasTexts field := by
  unfold HasTexts
  cases field with
  | none => simp [strings]
  | some v =>
    cases v with
    | atom k => cases k <;> simp [strings]
    | list | tuple | map | shared => simp [strings]

/-- **The check of claims** whose permissions and roles are texts: only the subject and the
attributes can be wrong. -/
theorem check_texts (subject : Value) (permissions roles : List String) (attributes : Entries) :
    check subject (.list (permissions.map .text)) (.list (roles.map .text)) (.map attributes) =
      Checked.join (Checked.join (.ok fun s a => ⟨s, permissions, roles, a⟩)
        (Checked.within (.field "subject") (Form.optional Form.text subject)))
        (Checked.within (.field "attributes") (Form.dictionary (.map attributes))) := by
  unfold check
  rw [Form.textSet_texts, Form.textSet_texts]
  cases Form.optional Form.text subject <;> cases Form.dictionary (.map attributes) <;> rfl

/-- Claims can be made exactly of a subject that is null or a text and of attributes
with texts as keys. -/
theorem check_ok_iff {subject : Value} {attributes : Entries} (permissions roles : List String) :
    (∃ claims, check subject (.list (permissions.map .text)) (.list (roles.map .text))
      (.map attributes) = .ok claims) ↔
      (subject = .null ∨ ∃ k : Scalar, subject = .atom k ∧ k.Textual) ∧ ∀ entry ∈ attributes,
        entry.1.Textual := by
  rw [check_texts, ← Form.optional_text_ok_iff, ← Form.textKeys_ok_iff, Form.dictionary]
  cases Form.optional Form.text subject <;> cases Form.textKeys attributes <;>
    simp [Checked.join, Checked.within, Except.map]

/-- Claims that pass the check have the permissions and the roles that were checked. -/
theorem permissions_roles_of_check {subject : Value} {permissions roles : List String}
    {attributes : Entries} (h : check subject (.list (permissions.map .text))
      (.list (roles.map .text)) (.map attributes) = .ok claims) :
    claims.permissions = permissions ∧ claims.roles = roles := by
  rw [check_texts] at h
  obtain ⟨_, _, hsubject, -, rfl⟩ := Checked.join_ok_iff.mp h
  obtain ⟨_, _, hstart, -, rfl⟩ := Checked.join_ok_iff.mp hsubject
  obtain rfl := Except.ok.inj hstart
  exact ⟨rfl, rfl⟩

/-- **A token that is read** makes claims of the texts of its fields. -/
theorem exists_of_ofToken (h : ofToken (.map fields) = .ok (some claims)) :
    ∃ permissions roles, strings ((fields.field? "permissions").getD .null) = .ok permissions ∧
      strings ((fields.field? "roles").getD .null) = .ok roles ∧
      check (saidSubject fields)
        (.list ((permissions ++ scopeWords (fields.field? "scope")).map .text))
        (.list (roles.map .text)) (.map (attributesOf fields)) = .ok claims := by
  rw [ofToken_map] at h
  obtain ⟨permissions, hpermissions, h⟩ := bind_ok_iff.mp h
  obtain ⟨roles, hroles, h⟩ := bind_ok_iff.mp h
  obtain ⟨made, hmade, h⟩ := bind_ok_iff.mp h
  obtain rfl := Option.some.inj (Except.ok.inj h)
  exact ⟨permissions, roles, hpermissions, hroles, Checked.raise_ok_iff.mp hmade⟩

/-- **Which tokens are read.** -/
theorem ofToken_ok_iff : (∃ claims, ofToken (.map fields) = .ok (some claims)) ↔ IsRead fields := by
  constructor
  · rintro ⟨claims, h⟩
    obtain ⟨permissions, roles, hpermissions, hroles, hcheck⟩ := exists_of_ofToken h
    obtain ⟨hsubject, hkeys⟩ := (check_ok_iff _ _).mp ⟨claims, hcheck⟩
    exact ⟨hsubject, strings_ok_iff.mp ⟨permissions, hpermissions⟩,
      strings_ok_iff.mp ⟨roles, hroles⟩, textual_attributesOf_iff.mp hkeys⟩
  · rintro ⟨hsubject, hpermissions, hroles, hkeys⟩
    obtain ⟨permissions, hpermissions⟩ := strings_ok_iff.mpr hpermissions
    obtain ⟨roles, hroles⟩ := strings_ok_iff.mpr hroles
    obtain ⟨claims, hcheck⟩ :=
      (check_ok_iff (permissions ++ scopeWords (fields.field? "scope")) roles).mpr
        ⟨hsubject, textual_attributesOf_iff.mpr hkeys⟩
    refine ⟨claims, ?_⟩
    rw [ofToken_map]
    apply bind_ok_iff.mpr
    refine ⟨permissions, hpermissions, bind_ok_iff.mpr ⟨roles, hroles, ?_⟩⟩
    exact bind_ok_iff.mpr ⟨claims, Checked.raise_ok_iff.mpr hcheck, rfl⟩

/-- A token makes claims or is refused. -/
theorem ofToken_error_iff : (∃ e, ofToken (.map fields) = .error e) ↔ ¬ IsRead fields := by
  rw [← ofToken_ok_iff]
  cases h : ofToken (.map fields) with
  | error e => simp
  | ok read =>
    cases read with
    | some claims => simp
    | none =>
      -- Only null makes no claims.
      rw [ofToken_map] at h
      obtain ⟨_, -, h⟩ := bind_ok_iff.mp h
      obtain ⟨_, -, h⟩ := bind_ok_iff.mp h
      obtain ⟨_, -, h⟩ := bind_ok_iff.mp h
      cases Except.ok.inj h

/-! ## §6 What the claims have -/

theorem mem_scopeWords_iff {scope : Option Value} : s ∈ scopeWords scope ↔ ScopeGrants scope s := by
  unfold scopeWords ScopeGrants
  split
  · simp [Text.mem_words_iff]
  · rename_i hother
    refine iff_of_false (by simp) ?_
    rintro ⟨t, rfl, -⟩
    exact hother t rfl

/-- **The permissions of a token in form** are those that it grants. -/
theorem mem_permissions_iff (hform : InForm (fields.field? "permissions"))
    (h : ofToken (.map fields) = .ok (some claims)) :
    s ∈ claims.permissions ↔ Grants (fields.field? "permissions") s ∨
      ScopeGrants (fields.field? "scope") s := by
  obtain ⟨permissions, roles, hpermissions, -, hcheck⟩ := exists_of_ofToken h
  rw [(permissions_roles_of_check hcheck).1, List.mem_append, mem_strings_iff hform hpermissions,
    mem_scopeWords_iff]

/-- **The roles of a token in form** are those that it grants. -/
theorem mem_roles_iff (hform : InForm (fields.field? "roles"))
    (h : ofToken (.map fields) = .ok (some claims)) :
    s ∈ claims.roles ↔ Grants (fields.field? "roles") s := by
  obtain ⟨permissions, roles, -, hroles, hcheck⟩ := exists_of_ofToken h
  rw [(permissions_roles_of_check hcheck).2, mem_strings_iff hform hroles]

/-- Requests whose credentials come to the same claims are answered alike. -/
theorem handle_of_resolve {d : Dispatcher} {service : Service} {request : Request}
    {claims : Option Claims} (h : request.credentials.resolve = claims) :
    d.handle request service = d.handle { request with credentials := .known claims } service := by
  have hknown : (Credentials.known claims).resolve = claims := rfl
  simp only [Dispatcher.handle, Dispatcher.answer, Dispatcher.idOf, h, hknown]

/-- **When a token grants what it says**: if its permissions and its roles are in form, or if it is
refused for one of the reasons for which tokens are. -/
theorem grantsAsSaid_iff (fields : Entries) :
    GrantsAsSaid fields ↔
      (InForm (fields.field? "permissions") ∧ InForm (fields.field? "roles")) ∨
        ¬ IsRead fields := by
  constructor
  · intro h
    by_cases hform : InForm (fields.field? "permissions") ∧ InForm (fields.field? "roles")
    · exact .inl hform
    · exact .inr (ofToken_error_iff.mp (h.refused hform))
  · rintro (⟨hpermissions, hroles⟩ | hrefused)
    · exact
        { permissions := fun claims h p => (mem_permissions_iff hpermissions h).mp
          roles := fun claims h r => (mem_roles_iff hroles h).mp
          refused := fun hnot => absurd ⟨hpermissions, hroles⟩ hnot
          unknown := fun hnot => absurd ⟨hpermissions, hroles⟩ hnot }
    · obtain ⟨e, herror⟩ := ofToken_error_iff.mpr hrefused
      -- Nothing is made of the token, so the request is one without claims.
      have hresolve : (Credentials.token (.map fields)).resolve = none := by
        simp [Credentials.resolve, herror]
      exact
        { permissions := fun claims h => by simp [herror] at h
          roles := fun claims h => by simp [herror] at h
          refused := fun _ => ⟨e, herror⟩
          unknown :=
            fun _ d service request hrequest => handle_of_resolve (by rw [hrequest, hresolve]) }

/-- A token that says who may not be an administrator. -/
def flaggedToken : Entries :=
  [(.text "sub", .text "eve"), (.text "permissions", .map [(.text "admin", .bool false)])]

/-- **Tokens grant what they do not say**: of a map of permissions, also those are
granted that it denies. -/
theorem not_forall_grantsAsSaid : ¬ ∀ fields, GrantsAsSaid fields := by
  intro h
  have hclaims : ofToken (.map flaggedToken) =
      .ok (some { subject := some "eve", permissions := ["admin"] }) := by
    rfl
  have hgranted := (h flaggedToken).permissions _ hclaims "admin" (by simp)
  rcases hgranted with hsaid | ⟨t, hscope, -⟩
  · exact hsaid
  · simp [flaggedToken, Entries.field?, Entries.get?] at hscope

end Claims

end Switchyard
