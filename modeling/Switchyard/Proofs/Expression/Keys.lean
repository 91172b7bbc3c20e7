import Switchyard.Proofs.Expression.Paths
import Switchyard.Proofs.Expression.Spelling
import Switchyard.Proofs.Value.Fields
import Switchyard.Scope

/-!
# Keys that can be written

A key that is a name, or is made of digits, can be written as a segment of a path. A name is looked
up as it was written. Digits are read as a number, since they may be the place of an item, and a map
is asked for the text of that number. So zeros in front are lost on the way: such a key is never
found, and if the map has the key without the zeros as well, its value is found instead.

Main statements: digits are written back without the zeros in front (`toDigits_decimalValue`), and
hence which keys are read as themselves (`readsOwn_iff`).
-/

namespace Switchyard

/-! ## §1 Zeros in front -/

namespace Text

/-- Digits without the zeros in front; the last digit stays in any case. -/
def plainDigits : List Char → List Char
  | '0' :: d :: rest => plainDigits (d :: rest)
  | ds => ds

/-- Digits with a zero in front of others. -/
def HasLeadingZero (ds : List Char) : Prop := ∃ d rest, ds = '0' :: d :: rest

variable {ds : List Char}

theorem length_plainDigits_le (ds : List Char) : (plainDigits ds).length ≤ ds.length := by
  fun_induction plainDigits ds with
  | case1 d rest ih => exact Nat.le_succ_of_le ih
  | case2 => exact Nat.le_refl _

/-- **Only zeros in front** are left out. -/
theorem plainDigits_eq_self_iff : plainDigits ds = ds ↔ ¬ HasLeadingZero ds := by
  constructor
  · rintro h ⟨d, rest, rfl⟩
    have hlength := length_plainDigits_le (d :: rest)
    rw [plainDigits] at h
    rw [h, List.length_cons] at hlength
    omega
  · intro h
    unfold plainDigits
    split
    · exact absurd ⟨_, _, rfl⟩ h
    · rfl

/-- A digit behind others that stand for `n`. -/
theorem decimalValue_step {c : Char} (h : isBasicDigit c = true) (n : Nat) :
    10 * n + (decimalDigit? c).getD 0 = 10 * n + (c.toNat - 48) := by
  rw [decimalDigit?_of_isBasicDigit h]
  rfl

/-- A basic digit is what its value is written as. -/
theorem toDigits_of_isBasicDigit {c : Char} (h : isBasicDigit c = true) :
    Nat.toDigits 10 (c.toNat - 48) = [c] := by
  obtain ⟨hfirst, hstop⟩ := isBasicDigit_iff.mp h
  rw [Nat.toDigits_of_lt_base (by omega)]
  have hchar : Nat.digitChar (c.toNat - 48) = c := by
    apply Char.toNat_inj.mp
    rw [Nat.toNat_digitChar_of_lt_ten (by omega)]
    omega
  rw [hchar]

/-- Digits behind a number that is not zero are written behind it. -/
theorem toDigits_append {n : Nat} (hn : 0 < n) (h : ∀ d ∈ ds, isBasicDigit d = true) :
    Nat.toDigits 10 (ds.foldl (fun n c => 10 * n + (decimalDigit? c).getD 0) n) =
      Nat.toDigits 10 n ++ ds := by
  induction ds generalizing n with
  | nil => simp
  | cons d ds ih =>
    obtain ⟨hd, hds⟩ := List.forall_mem_cons.mp h
    have hdigit := (isBasicDigit_iff.mp hd).2
    -- The first of the digits goes behind the number, and the others behind both.
    have hstep : Nat.toDigits 10 (10 * n + (d.toNat - 48)) = Nat.toDigits 10 n ++ [d] := by
      rw [← Nat.toDigits_append_toDigits (by decide) hn (by omega), toDigits_of_isBasicDigit hd]
    rw [List.foldl_cons, decimalValue_step hd, ih (by omega) hds, hstep, List.append_assoc,
      List.singleton_append]

/-- **Digits are written back** without the zeros in front. -/
theorem toDigits_decimalValue (hne : ds ≠ []) (h : ∀ d ∈ ds, isBasicDigit d = true) :
    Nat.toDigits 10 (decimalValue ds) = plainDigits ds := by
  fun_induction plainDigits ds with
  | case1 d rest ih => exact ih (by simp) (List.forall_mem_cons.mp h).2
  | case2 ds hplain =>
    obtain ⟨d, rest, rfl⟩ := List.exists_cons_of_ne_nil hne
    obtain ⟨hd, hrest⟩ := List.forall_mem_cons.mp h
    have hvalue : decimalValue (d :: rest) =
        rest.foldl (fun n c => 10 * n + (decimalDigit? c).getD 0) (d.toNat - 48) := by
      rw [decimalValue, List.foldl_cons, decimalValue_step hd, Nat.mul_zero, Nat.zero_add]
    rw [hvalue]
    by_cases hzero : d.toNat - 48 = 0
    · -- A zero is in front of nothing.
      have hfirst := (isBasicDigit_iff.mp hd).1
      obtain rfl : d = '0' := Char.toNat_inj.mp (show d.toNat = 48 by omega)
      cases rest with
      | nil => decide
      | cons e rest => exact absurd rfl (hplain e rest)
    · rw [toDigits_append (by omega) hrest, toDigits_of_isBasicDigit hd, List.singleton_append]

end Text

namespace Expression

open Grammar

/-! ## §2 Keys as segments -/

/-- **A key that can be written** as a segment of a path: a name, or basic digits. -/
inductive IsWritten : String → Prop
  | name {k : String} : IsName k → IsWritten k
  | digits {k : String} : k.toList ≠ [] → (∀ d ∈ k.toList, Text.isBasicDigit d = true) → IsWritten k

/-- The source that asks the input for what it has under a key. -/
def fieldSource (k : String) : String := Scope.inputRoot ++ "." ++ k

/-- The key without zeros in front of digits. -/
def plainKey (k : String) : String := String.ofList (Text.plainDigits k.toList)

theorem plainKey_eq_self_iff {k : String} : plainKey k = k ↔ ¬ Text.HasLeadingZero k.toList := by
  rw [← Text.plainDigits_eq_self_iff, plainKey, ← String.toList_inj, String.toList_ofList]

variable {k : String} {σ : Store}

/-- A source whose characters yield the lexemes of a derivation is parsed to its tree. -/
theorem parse_of_yields {source : String} {d : Grammar.Sum}
    (h : Yields false source.toList d.lexemes) : parse source = .ok ⟨source, d.tree⟩ := by
  obtain ⟨ts, hts, hlexemes⟩ := h 0
  rw [parse_of_tokens hts, treeOf_of_derives hlexemes]

/-- Digits are read after a dot as the place that they stand for. -/
theorem yields_digits (hne : k.toList ≠ []) (hdigits : ∀ d ∈ k.toList, Text.isBasicDigit d = true) :
    Yields true k.toList [.index (Text.decimalValue k.toList)] := by
  obtain ⟨c, tail, hk⟩ := List.exists_cons_of_ne_nil hne
  rw [hk] at hdigits ⊢
  have hsign := Text.isDigitSign_of_isDecimalDigit
      (Text.isDecimalDigit_of_isBasicDigit (hdigits c (List.mem_cons_self ..)))
  have hyields : Yields true (c :: (tail ++ [])) [.index (Text.decimalValue (c :: tail))] :=
    .lexeme (Text.isBlank_eq_false_of_isDigitSign hsign)
      (fun _ => readLexeme_index hdigits fun c hc => by cases hc) .nil
  rwa [List.append_nil] at hyields

/-- A root, a dot and what follows it are read as a path of one field. -/
theorem parse_field {field : Field} (h : Yields true k.toList [field.lexeme]) :
    parse (fieldSource k) = .ok ⟨fieldSource k, .path [.name Scope.inputRoot, field.segment]⟩ := by
  have hroot : IsName Scope.inputRoot := @isName_of_all _ 'i' ['n', 'p', 'u', 't'] rfl rfl rfl
  have hfield : Yields false (Scope.inputRoot.toList ++ '.' :: k.toList) [.name Scope.inputRoot,
      .dot, field.lexeme] :=
    yields_name hroot (fun c hc => .inl (Option.some.inj hc).symm) (.sign rfl (fun _ => rfl) h)
  have hderives : Yields false (fieldSource k).toList
      (Grammar.Sum.mk (.path Scope.inputRoot rfl [field]) []).lexemes := by
    simpa [fieldSource, Sum.lexemes, Term.lexemes, lexemesOfAdded] using hfield
  exact parse_of_yields hderives

/-- **A key that can be written** is read as a segment whose key it is, but for zeros in front. -/
theorem exists_segment (h : IsWritten k) : ∃ segment : Segment, segment.key = plainKey k ∧
    parse (fieldSource k) = .ok ⟨fieldSource k, .path [.name Scope.inputRoot, segment]⟩ := by
  cases h with
  | name hname =>
    obtain ⟨c, tail, hk, hc, -⟩ := id hname
    have hplain : plainKey k = k := by
      rw [plainKey_eq_self_iff]
      rintro ⟨d, rest, hzero⟩
      -- No name begins with a digit.
      rw [hk, String.toList_ofList] at hzero
      obtain ⟨rfl, -⟩ := List.cons.inj hzero
      cases hc
    have hyields : Yields true (k.toList ++ []) [.name k] :=
      yields_name hname (fun c hc => by cases hc) .nil
    rw [List.append_nil] at hyields
    exact ⟨.name k, hplain.symm, @parse_field k (.name k) hyields⟩
  | digits hne hdigits =>
    refine ⟨.index (Text.decimalValue k.toList), ?_,
      @parse_field k (.index _) (yields_digits hne hdigits)⟩
    rw [plainKey, ← Text.toDigits_decimalValue hne hdigits]
    exact String.toList_inj.mp (by rw [String.toList_ofList]; exact Nat.toList_repr)

/-- A place is read as itself. -/
theorem parse_place (i : Nat) :
    parse (fieldSource (toString i)) =
      .ok ⟨fieldSource (toString i), .path [.name Scope.inputRoot, .index i]⟩ := by
  have hdigits : (toString i).toList = Nat.toDigits 10 i := Nat.toList_repr
  have hyields : Yields true (toString i).toList [.index (Text.decimalValue (toString i).toList)] :=
    yields_digits (hdigits ▸ Nat.toDigits_ne_nil) fun d hd =>
      Text.isBasicDigit_of_mem_toDigits (hdigits ▸ hd)
  rw [hdigits, Text.decimalValue_toDigits, ← hdigits] at hyields
  exact @parse_field (toString i) (.index i) hyields

/-! ## §3 Keys that are read -/

/-- A context has an input. -/
def HasInput (σ : Store) (context input : Value) : Prop :=
  ∃ roots, σ.entries? context = some roots ∧ roots.field? Scope.inputRoot = some input

variable {context input : Value} {entries : Entries} {segment : Segment}

/-- A segment of the input is followed from there. -/
theorem valueAt_input (h : HasInput σ context input) :
    valueAt σ [.name Scope.inputRoot, segment] context =
      follow σ [.name Scope.inputRoot, segment] segment input := by
  obtain ⟨roots, hroots, hinput⟩ := h
  rw [valueAt, walk_cons_of_ok (follow_of_field (.name Scope.inputRoot) hroots hinput)]
  cases hfollow : follow σ [.name Scope.inputRoot, segment] segment input with
  | ok w => exact walk_cons_of_ok hfollow
  | error e => exact walk_cons_of_error hfollow

/-- **A key is read as itself**: the source with the key is parsed, and evaluated where the input
has the given entries it yields the value under the key, or an error that tells a field that is not
found if there is none. -/
def ReadsOwn (σ : Store) (context : Value) (entries : Entries) (k : String) : Prop :=
  ∃ e, parse (fieldSource k) = .ok e ∧
    (∀ v, entries.field? k = some v → e.evaluate σ context = .ok v) ∧
    (entries.field? k = none → ∃ problem path segment reason, e.evaluate σ context =
      .error problem ∧
      problem.raised = .fault (.missing path segment reason))

/-- In a map a key is read as itself exactly if the key without zeros in front
finds the same there. -/
theorem readsOwn_iff_field? (hk : IsWritten k) (hinput : HasInput σ context input)
    (hentries : σ.entries? input = some entries) :
    ReadsOwn σ context entries k ↔ entries.field? (plainKey k) = entries.field? k := by
  obtain ⟨segment, hkey, hparse⟩ := exists_segment hk
  have hvalue : valueAt σ [.name Scope.inputRoot, segment] context = _ := valueAt_input hinput
  cases hplain : entries.field? (plainKey k) with
  | none =>
    rw [follow_of_no_field segment hentries (hkey ▸ hplain)] at hvalue
    constructor
    · rintro ⟨e, he, hfound, -⟩
      obtain rfl := Except.ok.inj (hparse.symm.trans he)
      -- A value under the key would have been found.
      cases hown : entries.field? k with
      | none => rfl
      | some v => cases hvalue.symm.trans (hfound v hown)
    · intro hown
      refine ⟨_, hparse, fun v hv => ?_, fun _ => ⟨_, _, _, _, hvalue, rfl⟩⟩
      rw [← hown] at hv
      cases hv
  | some w =>
    rw [follow_of_field segment hentries (hkey ▸ hplain)] at hvalue
    constructor
    · rintro ⟨e, he, hfound, hmissing⟩
      obtain rfl := Except.ok.inj (hparse.symm.trans he)
      cases hown : entries.field? k with
      | none =>
        obtain ⟨problem, -, -, -, herror, -⟩ := hmissing hown
        cases hvalue.symm.trans herror
      | some v =>
        obtain rfl := Except.ok.inj (hvalue.symm.trans (hfound v hown))
        rfl
    · intro hown
      refine ⟨_, hparse, fun v hv => ?_, fun hnone => ?_⟩
      · obtain rfl := Option.some.inj (hown.trans hv)
        exact hvalue
      · cases hown.trans hnone

/-- **Which keys are read as themselves**: in a given map, a key that can be written is exactly if
the key without zeros in front finds the same there; and in every map, exactly if there are no zeros
in front. The items of a list are read by their places. -/
theorem readsOwn_iff (hk : IsWritten k) :
    (∀ (σ : Store) (context input : Value) (entries : Entries), HasInput σ context input →
      σ.entries? input = some entries →
      (ReadsOwn σ context entries k ↔ entries.field? (plainKey k) = entries.field? k)) ∧
    ((∀ (σ : Store) (context input : Value) (entries : Entries), HasInput σ context input →
      σ.entries? input = some entries → ReadsOwn σ context entries k) ↔
        ¬ Text.HasLeadingZero k.toList) ∧
    ∀ (σ : Store) (context input : Value) (items : List Value) (i : Nat) (v : Value),
      HasInput σ context input →
      σ.shape input = .sequence items → items[i]? = some v →
      ∃ e, parse (fieldSource (toString i)) = .ok e ∧ e.evaluate σ context = .ok v := by
  refine ⟨fun σ context input entries => readsOwn_iff_field? hk,
    ⟨fun hall => ?_, fun hzero => ?_⟩, ?_⟩
  · -- A map with nothing but the key tells the two keys apart.
    rw [← plainKey_eq_self_iff]
    by_contra hne
    have hinput : HasInput .empty
        (.map (Entries.ofFields [(Scope.inputRoot, .map (Entries.ofFields [(k, .null)]))]))
        (.map (Entries.ofFields [(k, .null)])) := ⟨_, rfl, rfl⟩
    have hsame := (readsOwn_iff_field? hk hinput rfl).mp (hall _ _ _ _ hinput rfl)
    simp [Ne.symm hne, Entries.field?, Entries.get?] at hsame
  · intro σ context input entries hinput hentries
    rw [readsOwn_iff_field? hk hinput hentries, plainKey_eq_self_iff.mpr hzero]
  · intro σ context input items i v hinput hshape hitem
    refine ⟨_, parse_place i, ?_⟩
    show valueAt σ [.name Scope.inputRoot, .index i] context = .ok v
    rw [valueAt_input hinput]
    have hfront : (0 : Int) ≤ i := Int.natCast_nonneg i
    simp only [follow, hshape, Segment.place?, if_pos hfront, Int.toNat_natCast, hitem]

/-- An agent's number and a number that is not his, each with its value. -/
def agents : Entries := Entries.ofFields [("007", .int 1), ("7", .int 2)]

/-- Data with the agents as the input. -/
def agentsInput : Value := .map (Entries.ofFields [(Scope.inputRoot, .map agents)])

theorem isWritten_agent : IsWritten "007" := by
  have hletters : "007".toList = ['0', '0', '7'] := rfl
  have hdigits : ['0', '0', '7'].all Text.isBasicDigit = true := rfl
  rw [← hletters] at hdigits
  exact .digits (by rw [hletters]; exact List.cons_ne_nil _ _) (List.all_eq_true.mp hdigits)

/-- The number of the agent is looked up without its zeros, and the other one is found. -/
theorem readsOwn_iff_agents :
    IsWritten "007" ∧ HasInput .empty agentsInput (.map agents) ∧
      (ReadsOwn .empty agentsInput agents "007" ↔ agents.field? "7" = agents.field? "007") := by
  have hinput : HasInput .empty agentsInput (.map agents) := ⟨_, rfl, rfl⟩
  exact ⟨isWritten_agent, hinput,
    (readsOwn_iff isWritten_agent).1 .empty agentsInput (.map agents) agents hinput rfl⟩

/-- Some keys that can be written are not read as themselves. -/
theorem not_forall_readsOwn :
    ¬ ∀ (k : String) (σ : Store) (context input : Value) (entries : Entries), IsWritten k →
    HasInput σ context input →
      σ.entries? input = some entries → ReadsOwn σ context entries k := by
  intro hall
  have hinput : HasInput .empty agentsInput (.map agents) := ⟨_, rfl, rfl⟩
  have hsame : some (Value.int 2) = some (Value.int 1) :=
    (readsOwn_iff_field? isWritten_agent hinput rfl).mp
      (hall "007" .empty agentsInput (.map agents) agents isWritten_agent hinput rfl)
  cases hsame

end Expression

end Switchyard
