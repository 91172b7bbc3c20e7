import Switchyard.Proofs.Expression.Parsing

/-!
# Where malformed source is refused

The reader goes on from token to token exactly as long as what it has been given begins an
expression. So the token that it refuses is the first one that cannot follow those before it,
whatever comes later; and where it refuses the end of the source, the tokens begin an
expression but are none.

Main statements: how far the reader comes (`begins_iff`), and hence at which position source is
refused (`parse_refused_iff`).
-/

namespace Switchyard.Expression

open Grammar

variable {length p : Nat} {outer : List Pending} {left : Pending} {reading : Reading}
  {ts : List Token} {front ls : List Lexeme}

/-! ## §1 Beginnings of expressions -/

/-- **Lexemes begin an expression** if they can be continued to the lexemes of one. -/
def Begins (ls : List Lexeme) : Prop := ∃ e : Sum, ls <+: e.lexemes

/-- Closing the parentheses around a sum makes an expression of it. -/
theorem OuterSpells.begins (h : OuterSpells outer front) (e : Sum) :
    Begins (front ++ e.lexemes) := by
  induction h generalizing e with
  | outermost => exact ⟨e, List.prefix_rfl⟩
  | @group outer left front back _ hleft ih =>
    -- The group is an operand of the sum that waits outside of it.
    obtain ⟨around, -, haround⟩ := hleft.join (.group e)
    have hclosed : front ++ around.lexemes = front ++ back ++ [.opening] ++ e.lexemes ++
        [.closing] := by
      simp [haround, Term.lexemes]
    obtain ⟨whole, hwhole⟩ := ih around
    rw [hclosed] at hwhole
    exact ⟨whole, (List.prefix_append ..).trans hwhole⟩

/-- A term where an operand has to stand makes the beginning of an expression. -/
theorem OuterSpells.begins_operand {back : List Lexeme} (h : OuterSpells outer front)
    (hleft : left.Spells back) (t : Term) : Begins (front ++ back ++ t.lexemes) := by
  obtain ⟨e, -, he⟩ := hleft.join t
  rw [List.append_assoc, ← he]
  exact h.begins e

theorem Begins.earlier {more : List Lexeme} (h : Begins more) (hle : ls <+: more) : Begins ls := by
  obtain ⟨e, he⟩ := h
  exact ⟨e, hle.trans he⟩

/-- **What has been read begins an expression.** -/
theorem Reading.Spells.begins (h : reading.Spells ls) : Begins ls := by
  cases h with
  -- Any operand will do for the one that is awaited.
  | awaiting houter hleft =>
    exact (houter.begins_operand hleft (.literal .null)).earlier (List.prefix_append ..)
  | complete e houter => exact houter.begins e
  | within hroot fields houter hleft => exact houter.begins_operand hleft (.path _ hroot fields)
  -- And any name for the field behind a dot.
  | @afterDot outer left front back root hroot fields houter hleft =>
    have hfield : (Term.path root hroot (fields ++ [.name root])).lexemes =
        (Term.path root hroot fields).lexemes ++ [.dot] ++ [.name root] := by
      simp [Term.lexemes, Field.lexeme]
    have hbegins := houter.begins_operand hleft (.path root hroot (fields ++ [.name root]))
    rw [hfield] at hbegins
    exact hbegins.earlier ⟨[.name root], by simp⟩

/-! ## §2 How far the reader comes -/

/-- What derives an expression brings the reader to its end, and each beginning of it some way. -/
theorem exists_reading_of_begins (h : Begins (ts.map (·.lexeme))) :
    ∃ reading, ts.foldlM Reading.step Reading.start = .ok reading := by
  obtain ⟨e, more, hmore⟩ := h
  -- Tokens for the lexemes that are to come can stand anywhere.
  have hderives : (ts ++ more.map fun l => (⟨l, 0, 0⟩ : Token)).map (·.lexeme) = e.lexemes := by
    simpa [Function.comp_def] using hmore
  have hread := @treeOf_of_derives 0 _ e hderives
  unfold treeOf at hread
  split_ifs at hread
  rw [List.foldlM_append, bind_assoc] at hread
  obtain ⟨reading, hfold, -⟩ := bind_ok_iff.mp hread
  exact ⟨reading, hfold⟩

/-- **How far the reader comes**: it goes on exactly as long as the tokens begin an expression. -/
theorem begins_iff :
    Begins (ts.map (·.lexeme)) ↔ ∃ reading, ts.foldlM Reading.step Reading.start = .ok reading := by
  refine ⟨exists_reading_of_begins, ?_⟩
  rintro ⟨reading, hfold⟩
  exact (Reading.spells_start.foldlM hfold).begins

/-- Behind what has been read the reader goes on from where it is. -/
theorem foldlM_append_of_ok {before after : List Token} {next : Reading}
    (h : before.foldlM Reading.step reading = .ok next) :
    (before ++ after).foldlM Reading.step reading = after.foldlM Reading.step next := by
  rw [List.foldlM_append, h]
  rfl

theorem foldlM_singleton (reading : Reading) (t : Token) :
    [t].foldlM Reading.step reading = reading.step t := by
  rw [List.foldlM_cons]
  exact bind_pure _

/-- A reading that fails does so at one of the tokens. -/
theorem exists_refused_of_foldlM {e : ReadError} (h : ts.foldlM Reading.step reading = .error e) :
    ∃ before t after next, ts = before ++ t :: after ∧
      before.foldlM Reading.step reading = .ok next ∧
      next.step t = .error e := by
  induction ts generalizing reading with
  | nil => cases h
  | cons t ts ih =>
    rw [List.foldlM_cons] at h
    cases hstep : reading.step t with
    | error e' =>
      rw [hstep] at h
      obtain rfl := Except.error.inj h
      exact ⟨[], t, ts, reading, rfl, rfl, hstep⟩
    | ok next =>
      rw [hstep] at h
      obtain ⟨before, t', after, last, rfl, hfold, hrefused⟩ := ih h
      refine ⟨t :: before, t', after, last, rfl, ?_, hrefused⟩
      rw [List.foldlM_cons, hstep]
      exact hfold

/-- The end of the source is refused at its position. -/
theorem position_of_finish {e : ReadError} (h : reading.finish length = .error e) :
    ∃ fault, e = .malformed fault length := by
  unfold Reading.finish at h
  split at h <;> cases h <;> exact ⟨_, rfl⟩

/-! ## §3 The first offence -/

/-- **The first offence** of tokens against the grammar, and its position: a token that cannot
follow those before it, or the end of the source behind tokens that are no expression yet. -/
inductive FirstOffence (ts : List Token) (length : Nat) : Nat → Prop
  | token {before after : List Token} {t : Token} : ts = before ++ t :: after →
      Begins (before.map (·.lexeme)) → ¬ Begins ((before ++ [t]).map (·.lexeme)) →
      FirstOffence ts length t.start
  | ending : Begins (ts.map (·.lexeme)) → (∀ e : Sum, e.lexemes ≠ ts.map (·.lexeme)) →
      FirstOffence ts length length

/-- Tokens are refused at their first offence. -/
theorem firstOffence_of_treeOf {e : ReadError} (hne : ts ≠ []) (h : treeOf ts length = .error e) :
    ∃ fault position, e = .malformed fault position ∧ FirstOffence ts length position := by
  have hnone : ∀ d : Sum, d.lexemes ≠ ts.map (·.lexeme) := by
    intro d hd
    rw [treeOf_of_derives hd.symm] at h
    cases h
  rw [treeOf, if_neg (by simpa using hne)] at h
  cases hfold : ts.foldlM Reading.step Reading.start with
  | error e' =>
    rw [hfold] at h
    obtain rfl := Except.error.inj h
    obtain ⟨before, t, after, reading, hts, hbefore, hrefused⟩ := exists_refused_of_foldlM hfold
    obtain ⟨fault, rfl⟩ := Reading.malformed_of_step hrefused
    refine ⟨fault, t.start, rfl, .token hts (begins_iff.mpr ⟨reading, hbefore⟩) fun hbegins => ?_⟩
    -- The reader would have gone on with the token.
    obtain ⟨next, hnext⟩ := begins_iff.mp hbegins
    rw [foldlM_append_of_ok hbefore, foldlM_singleton, hrefused] at hnext
    cases hnext
  | ok reading =>
    rw [hfold] at h
    obtain ⟨fault, rfl⟩ := position_of_finish h
    exact ⟨fault, length, rfl, .ending (begins_iff.mpr ⟨reading, hfold⟩) hnone⟩

/-- A first offence is where tokens are refused. -/
theorem treeOf_of_firstOffence (hne : ts ≠ []) (h : FirstOffence ts length p) :
    ∃ fault, treeOf ts length = .error (.malformed fault p) := by
  rw [treeOf, if_neg (by simpa using hne)]
  cases h with
  | @token before after t hts hbefore hrefused =>
    obtain ⟨reading, hfold⟩ := begins_iff.mp hbefore
    cases hstep : reading.step t with
    | error e =>
      obtain ⟨fault, rfl⟩ := Reading.malformed_of_step hstep
      refine ⟨fault, ?_⟩
      rw [hts, foldlM_append_of_ok hfold, List.foldlM_cons, hstep]
      rfl
    | ok next =>
      refine absurd (begins_iff.mpr ⟨next, ?_⟩) hrefused
      rw [foldlM_append_of_ok hfold, foldlM_singleton, hstep]
  | ending hbegins hnone =>
    obtain ⟨reading, hfold⟩ := begins_iff.mp hbegins
    rw [hfold]
    show ∃ fault, reading.finish length = .error (.malformed fault length)
    cases hfinish : reading.finish length with
    | error e =>
      obtain ⟨fault, rfl⟩ := position_of_finish hfinish
      exact ⟨fault, rfl⟩
    | ok tree =>
      obtain ⟨e, he, -⟩ := (Reading.spells_start.foldlM hfold).finish hfinish
      exact absurd he (hnone e)

/-- **Source is refused at its first offence**: if source can be cut into tokens and there are any,
then it is refused as malformed at a place exactly if this is the position of the first token that
cannot follow those before it or, if the tokens begin an expression but are none, of the end. -/
theorem parse_refused_iff {source : String} {place : Value} (h : tokens source = .ok ts)
    (hne : ts ≠ []) : (∃ what shown, parse source = .error (.fault (.malformed what shown place))) ↔
      ∃ position : Nat, place = .int position ∧ FirstOffence ts source.length position := by
  rw [parse_of_tokens h]
  constructor
  · rintro ⟨what, shown, hrefused⟩
    cases htree : treeOf ts source.length with
    | ok tree =>
      rw [htree] at hrefused
      cases hrefused
    | error e =>
      rw [htree] at hrefused
      obtain ⟨fault, position, rfl, hoffence⟩ := firstOffence_of_treeOf hne htree
      cases hrefused
      exact ⟨position, rfl, hoffence⟩
  · rintro ⟨position, rfl, hoffence⟩
    obtain ⟨fault, htree⟩ := treeOf_of_firstOffence hne hoffence
    rw [htree]
    exact ⟨_, _, rfl⟩

/-- The tokens of a group with two names in a row that is not closed. -/
def openGroup : List Token := [⟨.opening, 0, 1⟩, ⟨.name "a", 1, 2⟩, ⟨.name "b", 3, 4⟩]

/-- An open group is refused at the name that cannot follow another one, and not
where it is left open. -/
theorem parse_refused_openGroup :
    tokens "(a b" = .ok openGroup ∧ openGroup ≠ [] ∧
      parse "(a b" = .error (.fault (.malformed "Expected RPAREN" (.text "(a b") (.int 3))) ∧
      FirstOffence openGroup 4 3 := by
  have htokens : tokens "(a b" = .ok openGroup := by cbv
  have hne : openGroup ≠ [] := by simp [openGroup]
  have hrefused : parse "(a b" =
      .error (.fault (.malformed "Expected RPAREN" (.text "(a b") (.int 3))) := by
    rw [parse_of_tokens htokens]
    rfl
  obtain ⟨position, hplace, hoffence⟩ := (parse_refused_iff htokens hne).mp ⟨_, _, hrefused⟩
  obtain rfl : 3 = position := by
    injection hplace with hplace
    injection hplace with hplace
    omega
  exact ⟨htokens, hne, hrefused, hoffence⟩

end Switchyard.Expression
