import Switchyard.Proofs.Expression.Grammar
import Switchyard.Proofs.Value.Extension

/-!
# The reader follows the grammar

What the reader of tokens has been given is always the beginning of a derivation, and so
what it accepts is derived. Conversely it follows every derivation to its end and makes the
tree of that derivation.

Main statements: the reader makes the tree of a derivation from its lexemes (`treeOf_of_derives`)
and of no others (`derives_of_treeOf`), and hence parsing accepts exactly the grammar
(`parse_iff_derives`).
-/

namespace Switchyard.Expression

open Grammar

variable {length : Nat} {outer : List Pending} {left : Pending} {ts rest : List Token}

namespace Reading

/-! ## §1 Derivations are followed -/

/-- What comes of a reading when it is given tokens and then the end of the source. -/
def run (length : Nat) (reading : Reading) (ts : List Token) : Except ReadError Tree :=
  ts.foldlM step reading >>= finish length

theorem run_cons (reading : Reading) (t : Token) (ts : List Token) :
    reading.run length (t :: ts) = step reading t >>= fun next => next.run length ts := by
  simp only [run, List.foldlM_cons, bind_assoc]

theorem run_of_step {reading next : Reading} {t : Token} (h : step reading t = .ok next)
    (ts : List Token) : reading.run length (t :: ts) = next.run length ts := by
  rw [run_cons, h]
  rfl

/-- Unless a dot follows, a path that may go on is a complete sum. -/
theorem run_within (segments : List Segment) (h : EndsTerm (ts.map (·.lexeme))) :
    (within outer left segments).run length ts =
      (complete outer (join left (pathTree segments))).run length ts := by
  cases ts with
  | nil => cases outer <;> rfl
  | cons t ts =>
    have hdot : t.lexeme ≠ .dot := by simpa [EndsTerm] using h
    simp only [run_cons, step]

/-- The fields of a path are collected. -/
theorem run_fields (fields : List Field) (segments : List Segment)
    (h : ts.map (·.lexeme) = fields.flatMap fun field => [.dot, field.lexeme]) :
    (within outer left segments).run length (ts ++ rest) =
      (within outer left ((fields.map Field.segment).reverse ++ segments)).run length rest := by
  induction fields generalizing ts segments with
  | nil =>
    obtain rfl : ts = [] := by simpa using h
    rfl
  | cons field fields ih =>
    obtain ⟨dot, ts, rfl, hdot, h⟩ := List.map_eq_cons_iff.mp h
    obtain ⟨t, ts, rfl, ht, h⟩ := List.map_eq_cons_iff.mp h
    have hstep : step (afterDot outer left segments) t =
        .ok (within outer left (field.segment :: segments)) := by
      cases field <;> simp [step, ht, Field.lexeme, Field.segment]
    have hdotted : step (within outer left segments) dot = .ok (afterDot outer left segments) := by
      simp [step, hdot]
    rw [List.cons_append, List.cons_append, run_of_step hdotted, run_of_step hstep]
    simpa using ih (field.segment :: segments) h

mutual

/-- **A term is followed**: it completes the sum to its left. -/
theorem run_term : ∀ (t : Term) {outer : List Pending} {left : Pending} {ts rest : List Token},
    ts.map (·.lexeme) = t.lexemes → EndsTerm (rest.map (·.lexeme)) →
      (awaiting outer left).run length (ts ++ rest) =
        (complete outer (join left t.tree)).run length rest
  | .literal l, outer, left, ts, rest, h, _ => by
    obtain ⟨t, rfl, ht⟩ := List.map_eq_singleton_iff.mp h
    have hstep : step (awaiting outer left) t =
        .ok (complete outer (join left (.literal l.value))) := by
      rcases l with s | n | x | (_ | _) | _ <;>
          simp [step, operand, ht, Literal.lexeme, Literal.value, keyword?]
    rw [List.singleton_append, run_of_step hstep]
    rfl
  | .path root hroot fields, outer, left, ts, rest, h, hrest => by
    obtain ⟨t, ts, rfl, ht, h⟩ := List.map_eq_cons_iff.mp h
    have hstep : step (awaiting outer left) t = .ok (within outer left [.name root]) := by
      simp [step, operand, ht, hroot]
    -- The fields are collected behind the root, last first.
    rw [List.cons_append, run_of_step hstep, run_fields fields [.name root] h, run_within _ hrest]
    simp [pathTree, Term.tree]
  | .group e, outer, left, ts, rest, h, _ => by
    obtain ⟨opening, ts, rfl, hopening, h⟩ := List.map_eq_cons_iff.mp h
    obtain ⟨inner, closings, rfl, hinner, hclosings⟩ := List.map_eq_append_iff.mp h
    obtain ⟨closing, rfl, hclosing⟩ := List.map_eq_singleton_iff.mp hclosings
    have hopen : step (awaiting outer left) opening = .ok (awaiting (left :: outer) none) := by
      simp [step, operand, hopening]
    have hclose : step (complete (left :: outer) e.tree) closing =
        .ok (complete outer (join left e.tree)) := by
      simp [step, continuation, hclosing]
    have hends : EndsSum (([closing] ++ rest).map (·.lexeme)) := by
      simpa [hclosing] using endsSum_closing (rest.map (·.lexeme))
    -- The sum to the left waits outside while the inner one is read.
    rw [List.cons_append, run_of_step hopen, List.append_assoc, run_sum e hinner hends,
      List.singleton_append, run_of_step hclose]
    rfl

/-- **An expression is followed**. -/
theorem run_sum : ∀ (e : Sum) {outer : List Pending} {ts rest : List Token},
    ts.map (·.lexeme) = e.lexemes → EndsSum (rest.map (·.lexeme)) →
      (awaiting outer none).run length (ts ++ rest) = (complete outer e.tree).run length rest
  | .mk first others, outer, ts, rest, h, hrest => by
    obtain ⟨ts, more, rfl, hfirst, hothers⟩ := List.map_eq_append_iff.mp h
    have hends : EndsTerm ((more ++ rest).map (·.lexeme)) := by
      rw [List.map_append, hothers]
      exact endsTerm_added others hrest
    rw [List.append_assoc, run_term first hfirst hends, run_added others hothers hrest]
    rfl

theorem run_added :
    ∀ (others : List Term) {outer : List Pending} {tree : Tree} {ts rest : List Token},
    ts.map (·.lexeme) = lexemesOfAdded others → EndsSum (rest.map (·.lexeme)) →
      (complete outer tree).run length (ts ++ rest) =
        (complete outer (treeOfAdded tree others)).run length rest
  | [], outer, tree, ts, rest, h, _ => by
    obtain rfl : ts = [] := by simpa [lexemesOfAdded] using h
    rfl
  | t :: others, outer, tree, ts, rest, h, hrest => by
    obtain ⟨plus, ts, rfl, hplus, h⟩ := List.map_eq_cons_iff.mp h
    obtain ⟨ts, more, rfl, ht, hothers⟩ := List.map_eq_append_iff.mp h
    have hstep : step (complete outer tree) plus = .ok (awaiting outer (some tree)) := by
      simp [step, continuation, hplus]
    have hends : EndsTerm ((more ++ rest).map (·.lexeme)) := by
      rw [List.map_append, hothers]
      exact endsTerm_added others hrest
    rw [List.cons_append, run_of_step hstep, List.append_assoc, run_term t ht hends,
      run_added others hothers hrest]
    rfl

end

end Reading

theorem Grammar.Term.lexemes_ne_nil (t : Term) : t.lexemes ≠ [] := by
  cases t <;> simp [Term.lexemes]

theorem Grammar.Sum.lexemes_ne_nil (e : Sum) : e.lexemes ≠ [] := by
  obtain ⟨first, others⟩ := e
  simp [Sum.lexemes, first.lexemes_ne_nil]

/-- **What is derived is read**: tokens with the lexemes of a derivation make its tree. -/
theorem treeOf_of_derives {e : Sum} (h : ts.map (·.lexeme) = e.lexemes) :
    treeOf ts length = .ok e.tree := by
  have hne : ts ≠ [] := by
    rintro rfl
    exact e.lexemes_ne_nil h.symm
  have hrun := @Reading.run_sum length e [] ts [] h (by simp [EndsSum])
  simp only [List.append_nil] at hrun
  rw [treeOf, if_neg (by simpa using hne)]
  exact hrun

/-! ## §2 What has been read begins a derivation -/

/-- Lexemes of a sum that waits for an operand, with the plus behind it; nothing if
there is no such sum. -/
inductive Pending.Spells : Pending → List Lexeme → Prop
  | none : Spells none []
  | sum (e : Sum) : Spells (some e.tree) (e.lexemes ++ [.plus])

/-- Lexemes of the expressions around the innermost one, up to the parenthesis that opens it. -/
inductive OuterSpells : List Pending → List Lexeme → Prop
  | outermost : OuterSpells [] []
  | group {outer : List Pending} {left : Pending} {front back : List Lexeme} :
      OuterSpells outer front → left.Spells back →
      OuterSpells (left :: outer) (front ++ back ++ [.opening])

/-- **What has been read**: the lexemes that bring the reader to a state are those of derivations
that are complete but for what the state waits for. -/
inductive Reading.Spells : Reading → List Lexeme → Prop
  | awaiting {outer : List Pending} {left : Pending} {front back : List Lexeme} :
      OuterSpells outer front → left.Spells back → Spells (.awaiting outer left) (front ++ back)
  | complete {outer : List Pending} {front : List Lexeme} (e : Sum) :
      OuterSpells outer front → Spells (.complete outer e.tree) (front ++ e.lexemes)
  | within {outer : List Pending} {left : Pending} {front back : List Lexeme} {root : String}
      (hroot : keyword? root = none) (fields : List Field) :
      OuterSpells outer front → left.Spells back →
      Spells (.within outer left ((fields.map Field.segment).reverse ++ [.name root]))
        (front ++ back ++ (Term.path root hroot fields).lexemes)
  | afterDot {outer : List Pending} {left : Pending} {front back : List Lexeme} {root : String}
      (hroot : keyword? root = none) (fields : List Field) :
      OuterSpells outer front → left.Spells back →
      Spells (.afterDot outer left ((fields.map Field.segment).reverse ++ [.name root]))
        (front ++ back ++ (Term.path root hroot fields).lexemes ++ [.dot])

/-- A term completes the sum that waits for it. -/
theorem Pending.Spells.join {back : List Lexeme} (h : left.Spells back) (t : Term) :
    ∃ e : Sum, e.tree = Expression.join left t.tree ∧ e.lexemes = back ++ t.lexemes := by
  cases h with
  | none =>
    exact ⟨.mk t [], by simp [Sum.tree, treeOfAdded, Expression.join], by
      simp [Sum.lexemes, lexemesOfAdded]⟩
  | sum e => exact ⟨e.add t, by simp [Expression.join], by simp⟩

namespace Reading

theorem spells_start : start.Spells [] := .awaiting .outermost .none

/-- A term where an operand has to stand brings the reader to a complete sum. -/
theorem Spells.operand {front back : List Lexeme} (houter : OuterSpells outer front)
    (hleft : left.Spells back) (t : Term) :
    Spells (.complete outer (join left t.tree)) (front ++ back ++ t.lexemes) := by
  obtain ⟨e, htree, hlexemes⟩ := hleft.join t
  rw [← htree, List.append_assoc, ← hlexemes]
  exact .complete e houter

theorem spells_of_operand {front back : List Lexeme} {t : Token} {next : Reading}
    (houter : OuterSpells outer front) (hleft : left.Spells back)
    (h : operand outer left t = .ok next) :
    next.Spells (front ++ back ++ [t.lexeme]) := by
  have hliteral : ∀ l : Literal, next = .complete outer (join left (.literal l.value)) →
      l.lexeme = t.lexeme →
      next.Spells (front ++ back ++ [t.lexeme]) := by
    rintro l rfl hlexeme
    rw [← hlexeme]
    exact .operand houter hleft (.literal l)
  unfold operand at h
  split at h
  · rename_i s hs
    exact hliteral (.text s) (Except.ok.inj h).symm hs.symm
  · rename_i n hn
    exact hliteral (.integer n) (Except.ok.inj h).symm hn.symm
  · rename_i x hx
    exact hliteral (.decimal x) (Except.ok.inj h).symm hx.symm
  · rename_i s hs
    split at h
    -- A keyword is one of three literals.
    · rename_i value hvalue
      unfold keyword? at hvalue
      split at hvalue
      · obtain rfl := Option.some.inj hvalue
        exact hliteral (.truth true) (Except.ok.inj h).symm hs.symm
      · obtain rfl := Option.some.inj hvalue
        exact hliteral (.truth false) (Except.ok.inj h).symm hs.symm
      · obtain rfl := Option.some.inj hvalue
        exact hliteral .null (Except.ok.inj h).symm hs.symm
      · cases hvalue
    -- Any other name begins a path.
    · rename_i hroot
      obtain rfl := Except.ok.inj h
      rw [hs]
      exact .within hroot [] houter hleft
  · rename_i hopening
    obtain rfl := Except.ok.inj h
    have hspells := Spells.awaiting (.group houter hleft) .none
    rwa [List.append_nil, ← hopening] at hspells
  · cases h

theorem spells_of_continuation {front : List Lexeme} {e : Sum} {t : Token} {next : Reading}
    (houter : OuterSpells outer front) (h : continuation outer e.tree t = .ok next) :
    next.Spells (front ++ e.lexemes ++ [t.lexeme]) := by
  unfold continuation at h
  split at h
  · rename_i hplus
    obtain rfl := Except.ok.inj h
    rw [hplus, List.append_assoc]
    exact .awaiting houter (.sum e)
  · rename_i hclosing
    obtain rfl := Except.ok.inj h
    -- The parenthesis closes a group, which is an operand of the expression around it.
    cases houter with
    | @group outer left front back houter hleft =>
      rw [hclosing]
      simpa [Term.lexemes, Term.tree] using Spells.operand houter hleft (.group e)
  · cases h
  · cases h

/-- **Reading a token** goes on with what has been read. -/
theorem Spells.step {reading next : Reading} {ls : List Lexeme} {t : Token} (h : reading.Spells ls)
    (hstep : step reading t = .ok next) : next.Spells (ls ++ [t.lexeme]) := by
  cases h with
  | awaiting houter hleft => exact spells_of_operand houter hleft hstep
  | complete e houter => exact spells_of_continuation houter hstep
  | @within outer left front back root hroot fields houter hleft =>
    simp only [Reading.step] at hstep
    split at hstep
    · rename_i hdot
      obtain rfl := Except.ok.inj hstep
      rw [hdot]
      exact .afterDot hroot fields houter hleft
    · -- The path is an operand that is complete.
      obtain ⟨e, htree, hlexemes⟩ := hleft.join (.path root hroot fields)
      have hpath : pathTree ((fields.map Field.segment).reverse ++ [.name root]) =
          (Term.path root hroot fields).tree := by
        simp [pathTree, Term.tree]
      rw [hpath, ← htree] at hstep
      rw [List.append_assoc front, ← hlexemes]
      exact spells_of_continuation houter hstep
  | @afterDot outer left front back root hroot fields houter hleft =>
    have hfield : ∀ field : Field, next = .within outer left (field.segment ::
        ((fields.map Field.segment).reverse ++ [.name root])) → field.lexeme = t.lexeme →
        next.Spells (front ++ back ++ (Term.path root hroot fields).lexemes ++ [.dot] ++
          [t.lexeme]) := by
      rintro field rfl hlexeme
      rw [← hlexeme]
      simpa [Term.lexemes] using Spells.within hroot (fields ++ [field]) houter hleft
    simp only [Reading.step] at hstep
    split at hstep
    · rename_i s hs
      exact hfield (.name s) (Except.ok.inj hstep).symm hs.symm
    · rename_i n hn
      exact hfield (.index n) (Except.ok.inj hstep).symm hn.symm
    · cases hstep

/-- Reading tokens goes on with what has been read. -/
theorem Spells.foldlM {reading next : Reading} {ls : List Lexeme} (h : reading.Spells ls)
    (hfold : ts.foldlM Reading.step reading = .ok next) :
    next.Spells (ls ++ ts.map (·.lexeme)) := by
  induction ts generalizing reading ls with
  | nil =>
    obtain rfl := Except.ok.inj hfold
    simpa using h
  | cons t ts ih =>
    obtain ⟨between, hstep, hrest⟩ := bind_ok_iff.mp hfold
    simpa using ih (h.step hstep) hrest

/-- A reading that may end has read an expression. -/
theorem Spells.finish {reading : Reading} {ls : List Lexeme} {tree : Tree} (h : reading.Spells ls)
    (hfinish : reading.finish length = .ok tree) : ∃ e : Sum, e.lexemes = ls ∧ e.tree = tree := by
  cases h with
  | awaiting _ _ => cases hfinish
  | complete e houter =>
    cases houter with
    | outermost => exact ⟨e, rfl, Except.ok.inj hfinish⟩
    | group _ _ => cases hfinish
  | @within outer left front back root hroot fields houter hleft =>
    cases houter with
    | outermost =>
      obtain ⟨e, htree, hlexemes⟩ := hleft.join (.path root hroot fields)
      refine ⟨e, by simpa using hlexemes, ?_⟩
      obtain rfl := Except.ok.inj hfinish
      simpa [pathTree, Term.tree] using htree
    | group _ _ => cases hfinish
  | afterDot _ _ _ _ => cases hfinish

end Reading

/-- **What is read is derived**: tokens that make a tree have the lexemes of a
derivation, and its tree. -/
theorem derives_of_treeOf {tree : Tree} (h : treeOf ts length = .ok tree) :
    ∃ e : Sum, e.lexemes = ts.map (·.lexeme) ∧ e.tree = tree := by
  unfold treeOf at h
  split_ifs at h with hempty
  obtain ⟨reading, hfold, hfinish⟩ := bind_ok_iff.mp h
  obtain ⟨e, hlexemes, htree⟩ := (Reading.spells_start.foldlM hfold).finish hfinish
  exact ⟨e, hlexemes, htree⟩

/-! ## §3 Errors -/

namespace Reading

/-- The reader refuses a token only since it breaks the grammar, at the place of that token. -/
theorem malformed_of_step {reading : Reading} {t : Token} {e : ReadError}
    (h : step reading t = .error e) :
    ∃ fault, e = .malformed fault t.start := by
  have hcontinuation : ∀ {outer tree}, continuation outer tree t = .error e →
      ∃ fault, e = .malformed fault t.start := by
    intro outer tree h
    unfold continuation at h
    split at h <;> cases h <;> exact ⟨_, rfl⟩
  cases reading with
  | awaiting outer left =>
    simp only [step, operand] at h
    split at h
    case h_4 => split at h <;> cases h
    all_goals cases h
    exact ⟨_, rfl⟩
  | complete outer tree => exact hcontinuation h
  | within outer left segments =>
    simp only [step] at h
    split at h
    · cases h
    · exact hcontinuation h
  | afterDot outer left segments =>
    simp only [step] at h
    split at h <;> cases h
    exact ⟨_, rfl⟩

theorem malformed_of_foldlM {reading : Reading} {e : ReadError}
    (h : ts.foldlM step reading = .error e) :
    ∃ fault position, e = .malformed fault position := by
  induction ts generalizing reading with
  | nil => cases h
  | cons t ts ih =>
    rw [List.foldlM_cons] at h
    cases hstep : step reading t with
    | error e' =>
      rw [hstep] at h
      obtain ⟨fault, rfl⟩ := malformed_of_step hstep
      exact ⟨fault, t.start, (Except.error.inj h).symm⟩
    | ok next =>
      rw [hstep] at h
      exact ih h

theorem malformed_of_finish {reading : Reading} {e : ReadError}
    (h : reading.finish length = .error e) :
    ∃ fault position, e = .malformed fault position := by
  unfold finish at h
  split at h <;> cases h <;> exact ⟨_, _, rfl⟩

end Reading

/-- Tokens that make no tree break the grammar. -/
theorem malformed_of_treeOf {e : ReadError} (h : treeOf ts length = .error e) :
    ∃ fault position, e = .malformed fault position := by
  unfold treeOf at h
  split_ifs at h
  · exact ⟨_, _, (Except.error.inj h).symm⟩
  · cases hfold : ts.foldlM Reading.step Reading.start with
    | error e' =>
      rw [hfold] at h
      obtain rfl := Except.error.inj h
      exact Reading.malformed_of_foldlM hfold
    | ok reading =>
      rw [hfold] at h
      exact Reading.malformed_of_finish h

/-! ## §4 Parsing -/

/-- How source is parsed whose tokens are known. -/
theorem parse_of_tokens {source : String} (h : tokens source = .ok ts) :
    parse source = match treeOf ts source.length with
      | .ok tree => .ok ⟨source, tree⟩
      | .error e => .error (e.raised source) := by
  have hread : read source = treeOf ts source.length >>= fun tree => pure ⟨source, tree⟩ := by
    rw [read, h]
    rfl
  rw [parse, hread]
  cases treeOf ts source.length <;> rfl

/-- **Parsing accepts exactly the grammar**: if source can be cut into tokens, then it is parsed
exactly as the derivations of their lexemes say: to the tree of such a derivation, of which there is
no other; and if there is none, it is refused as malformed. -/
theorem parse_iff_derives {source : String} (h : tokens source = .ok ts) :
    (∀ e : Expression, parse source = .ok e ↔
      ∃ d : Sum, d.lexemes = ts.map (·.lexeme) ∧ e = ⟨source, d.tree⟩) ∧
    (∀ d d' : Sum, d.lexemes = ts.map (·.lexeme) → d'.lexemes = ts.map (·.lexeme) → d = d') ∧
    ((∀ d : Sum, d.lexemes ≠ ts.map (·.lexeme)) →
      ∃ what position, parse source =
        .error (.fault (.malformed what (.text source) position))) := by
  have hparse := parse_of_tokens h
  refine ⟨fun e => ⟨fun he => ?_, ?_⟩, fun d d' hd hd' => Sum.lexemes_injective (hd.trans hd'.symm),
    fun hnone => ?_⟩
  · rw [hparse] at he
    cases htree : treeOf ts source.length with
    | error problem =>
      rw [htree] at he
      cases he
    | ok tree =>
      rw [htree] at he
      obtain ⟨d, hlexemes, rfl⟩ := derives_of_treeOf htree
      exact ⟨d, hlexemes, (Except.ok.inj he).symm⟩
  · rintro ⟨d, hlexemes, rfl⟩
    rw [hparse, treeOf_of_derives hlexemes.symm]
  · cases htree : treeOf ts source.length with
    | ok tree =>
      obtain ⟨d, hlexemes, -⟩ := derives_of_treeOf htree
      exact absurd hlexemes (hnone d)
    | error problem =>
      obtain ⟨fault, position, rfl⟩ := malformed_of_treeOf htree
      exact ⟨fault.message, .int position, by rw [hparse, htree]; rfl⟩

/-- A sum with a group on its right is parsed to the tree of its derivation. -/
theorem parse_groupedSum : parse "1 + (a.0)" =
    .ok ⟨"1 + (a.0)", .binary "+" (.literal (.int 1)) (.path [.name "a", .index 0])⟩ := by
  have htokens : tokens "1 + (a.0)" = .ok [⟨.integer 1, 0, 1⟩, ⟨.plus, 2, 3⟩, ⟨.opening, 4, 5⟩,
      ⟨.name "a", 5, 6⟩, ⟨.dot, 6, 7⟩, ⟨.index 0, 7, 8⟩, ⟨.closing, 8, 9⟩] := by cbv
  apply ((parse_iff_derives htokens).1 _).mpr
  exact ⟨.mk (.literal (.integer 1)) [.group (.mk (.path "a" rfl [.index 0]) [])], rfl, rfl⟩

end Switchyard.Expression
