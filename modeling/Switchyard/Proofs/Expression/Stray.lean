import Switchyard.Proofs.Expression.Extent
import Switchyard.Proofs.Expression.Parsing

/-!
# Stray characters

Whether a token is a number or a name is told by the class of its first character: any digit sign
begins a number and any letter a name. But numbers are made of decimal digits only and names of
basic letters. A character of the wider classes that is in neither of the narrower ones is *stray*:
a token begins with it and nothing of that token can be read.

Such a source breaks the reader. Every other source is read or refused as malformed.

Main statements: what cannot be cut into tokens (`tokensFrom_unreadable_iff`), and hence how source
fares (`parse_cases`).
-/

namespace Switchyard.Expression

variable {afterDot : Bool} {position : Nat} {c d : Char} {w back rest : List Char}

/-! ## §1 The characters -/

/-- **A stray character** passes for a digit or a letter, but is no decimal digit
and no basic letter. -/
def IsStray (c : Char) : Prop :=
  (Text.isDigitSign c = true ∨ Text.isLetter c = true) ∧ Text.isDecimalDigit c = false ∧
    Text.isBasicLetter c = false

instance : DecidablePred IsStray := fun c =>
  inferInstanceAs (Decidable ((Text.isDigitSign c = true ∨ Text.isLetter c = true) ∧ _))

namespace IsStray

/-- What is not stray differs from what is. -/
theorem ne (h : IsStray c) (hd : ¬ IsStray d) : c ≠ d := by
  rintro rfl
  exact hd h

theorem isBlank_eq_false (h : IsStray c) : Text.isBlank c = false := by
  rcases h.1 with hdigit | hletter
  · exact Text.isBlank_eq_false_of_isDigitSign hdigit
  · exact Text.isBlank_eq_false_of_isLetter hletter

theorem startsName_eq_false (h : IsStray c) : startsName c = false := by
  have hunderscore : c ≠ '_' := h.ne (by decide)
  simp [startsName, hunderscore, h.2.2]

/-- A stray character does not go on with a name. -/
theorem continuesName_eq_false (h : IsStray c) : continuesName c = false := by
  have hhyphen : c ≠ '-' := h.ne (by decide)
  -- A basic digit would be a decimal digit.
  have hdigit : Text.isBasicDigit c = false := by
    by_contra hbasic
    have hdecimal := Text.isDecimalDigit_of_isBasicDigit (Bool.not_eq_false _ ▸ hbasic)
    rw [h.2.1] at hdecimal
    cases hdecimal
  simp [continuesName, h.startsName_eq_false, hdigit, hhyphen]

/-- A token that begins with a stray character cannot be read. -/
theorem readLexeme (h : IsStray c) :
    readLexeme afterDot position c rest = .error (.unreadable c position) := by
  have hquote : ¬ (c = '"' ∨ c = '\'') := not_or.mpr ⟨h.ne (by decide), h.ne (by decide)⟩
  rw [Expression.readLexeme, if_neg hquote]
  by_cases hdigit : Text.isDigitSign c = true
  · rw [if_pos hdigit, if_pos (by simp [h.2.1])]
  · have hletter : Text.isLetter c = true := h.1.resolve_left hdigit
    rw [if_neg hdigit, if_pos (.inr hletter), if_pos (by simp [h.startsName_eq_false])]

end IsStray

/-- No ASCII character is stray. -/
theorem not_isStray_of_ascii (h : c.toNat < 128) : ¬ IsStray c := by
  have hall : ∀ n < 128, ¬ IsStray (Char.ofNat n) := by decide +kernel
  simpa using hall c.toNat h

/-- Reading a text only fails since the text is malformed. -/
theorem malformed_of_readText {quote : Char} {start : Nat} {cs : List Char} {e : ReadError}
    (h : readText quote start position cs = .error e) :
    ∃ fault place, e = .malformed fault place := by
  fun_induction readText quote start position cs with
  | case1 | case2 | case3 => exact ⟨_, _, (Except.error.inj h).symm⟩
  | case5 => cases h
  | case4 position e rest c hescape ih | case6 position c rest _ hquote ih =>
    -- The rest of the text fails.
    cases hrest : readText quote start _ rest with
    | error e' =>
      rw [hrest] at h
      obtain rfl := Except.error.inj h
      exact ih hrest
    | ok result =>
      rw [hrest] at h
      cases h

/-- **Only stray characters** begin tokens that cannot be read. -/
theorem isStray_of_readLexeme {e : ReadError} (h : readLexeme afterDot position c rest = .error e) :
    (∃ fault place, e = .malformed fault place) ∨ e = .unreadable c position ∧ IsStray c := by
  unfold readLexeme at h
  split_ifs at h with hquote hdigit hdecimal hdot hletter hname
  · cases htext : readText c position (position + 1) rest with
    | error e' =>
      rw [htext] at h
      obtain rfl := Except.error.inj h
      exact .inl (malformed_of_readText htext)
    | ok result =>
      rw [htext] at h
      cases h
  · have hdecimal : Text.isDecimalDigit c = false := by simpa using hdecimal
    -- A basic letter is no digit sign.
    have hbasic : Text.isBasicLetter c = false := by
      by_contra hbasic
      rw [Text.isDigitSign_eq_false_of_isBasicLetter (by simpa using hbasic)] at hdigit
      cases hdigit
    exact .inr ⟨(Except.error.inj h).symm, .inl hdigit, hdecimal, hbasic⟩
  · -- A decimal digit would be a digit sign.
    have hdecimal : Text.isDecimalDigit c = false := by
      by_contra hdecimal
      exact hdigit (Text.isDigitSign_of_isDecimalDigit (by simpa using hdecimal))
    have hname : ¬ c = '_' ∧ Text.isBasicLetter c = false := by simpa [startsName] using hname
    exact .inr ⟨(Except.error.inj h).symm, .inr (hletter.resolve_left hname.1), hdecimal, hname.2⟩
  all_goals cases h
  exact .inl ⟨_, _, rfl⟩

/-! ## §2 Lexemes before a stray character -/

theorem IsStray.delimits (h : IsStray c) : Delimits c :=
  ⟨h.2.1, h.continuesName_eq_false, h.ne (by decide), h.ne (by decide)⟩

/-- **A lexeme is read alike** whether a stray character follows or nothing. -/
theorem readLexeme_append_iff (hd : IsStray d) {l : Lexeme} {n : Nat} :
    readLexeme afterDot position c (w ++ d :: back) = .ok (l, n) ∧ n ≤ w.length ↔
      readLexeme afterDot position c w = .ok (l, n) := by
  constructor
  · rintro ⟨h, hlength⟩
    simpa using readLexeme_across h hlength delimited_nil position
  · intro h
    have hlength := length_readLexeme_le h
    have hcut : readLexeme afterDot position c (w ++ []) = .ok (l, n) := by rwa [List.append_nil]
    exact ⟨readLexeme_across hcut hlength (delimited_cons hd.delimits) position, hlength⟩

/-! ## §3 Source with a stray character -/

/-- **Source is cut up to a stray character**: what is in front of it can be cut into tokens, so
that a token has to begin with it. -/
def StrayFrom (afterDot : Bool) (position : Nat) (cs : List Char) : Prop :=
  ∃ front d back, cs = front ++ d :: back ∧ IsStray d ∧
    ∃ ts, tokensFrom afterDot position front = .ok ts

theorem tokensFrom_of_lexeme {l : Lexeme} {n : Nat} {ts : List Token} (hc : Text.isBlank c = false)
    (hread : readLexeme afterDot position c w = .ok (l, n))
    (h : tokensFrom l.isDot (position + 1 + n) (w.drop n) = .ok ts) :
    ∃ ts', tokensFrom afterDot position (c :: w) = .ok ts' := by
  refine ⟨⟨l, position, position + 1 + n⟩ :: ts, ?_⟩
  rw [tokensFrom, if_neg (by simp [hc]), hread]
  simp only [h]
  rfl

/-- A source that cannot be read has a stray character where a token has to begin. -/
theorem strayFrom_of_unreadable {cs : List Char} {q : Char} {p : Nat}
    (h : tokensFrom afterDot position cs = .error (.unreadable q p)) :
    StrayFrom afterDot position cs := by
  fun_induction tokensFrom afterDot position cs with
  | case1 => cases h
  | case2 afterDot position c rest hblank ih =>
    obtain ⟨front, d, back, rfl, hd, ts, hts⟩ := ih h
    exact ⟨c :: front, d, back, rfl, hd, ts, by rw [tokensFrom, if_pos hblank, hts]⟩
  | case3 afterDot position c rest hblank e hread =>
    obtain rfl := Except.error.inj h
    rcases isStray_of_readLexeme hread with ⟨fault, place, hmalformed⟩ | ⟨-, hc⟩
    · cases hmalformed
    · exact ⟨[], c, rest, rfl, hc, [], by rw [tokensFrom]⟩
  | case4 afterDot position c rest hblank l n hread ih =>
    have hrest : tokensFrom l.isDot (position + 1 + n) (rest.drop n) =
        .error (.unreadable q p) := by
      cases htokens : tokensFrom l.isDot (position + 1 + n) (rest.drop n) with
      | error e =>
        rw [htokens] at h
        exact h
      | ok ts =>
        rw [htokens] at h
        cases h
    obtain ⟨front, d, back, hdrop, hd, ts, hts⟩ := ih hrest
    -- The lexeme lies in front of the stray character, so it is read alike without what follows.
    have hlength : (rest.take n).length = n := by
      have := congrArg List.length hdrop
      simp only [List.length_drop, List.length_append, List.length_cons] at this
      rw [List.length_take]
      omega
    have hsplit : rest = (rest.take n ++ front) ++ d :: back := by
      rw [List.append_assoc, ← hdrop, List.take_append_drop]
    have hread' : readLexeme afterDot position c (rest.take n ++ front) = .ok (l, n) := by
      apply (readLexeme_append_iff hd).mp
      rw [← hsplit]
      exact ⟨hread, by simp [hlength]⟩
    have hbehind : (rest.take n ++ front).drop n = front := List.drop_left' hlength
    obtain ⟨ts', hts'⟩ :=
      tokensFrom_of_lexeme (by simpa using hblank) hread' (by rw [hbehind]; exact hts)
    exact ⟨c :: (rest.take n ++ front), d, back, by rw [List.cons_append, ← hsplit], hd, ts', hts'⟩

/-- The character that a source cannot be read past is stray. -/
theorem isStray_of_unreadable {cs : List Char} {q : Char} {p : Nat}
    (h : tokensFrom afterDot position cs = .error (.unreadable q p)) : IsStray q := by
  fun_induction tokensFrom afterDot position cs with
  | case1 => cases h
  | case2 afterDot position c rest hblank ih => exact ih h
  | case3 afterDot position c rest hblank e hread =>
    obtain rfl := Except.error.inj h
    rcases isStray_of_readLexeme hread with ⟨fault, place, hmalformed⟩ | ⟨hunreadable, hc⟩
    · cases hmalformed
    · obtain ⟨rfl, -⟩ := ReadError.unreadable.inj hunreadable
      exact hc
  | case4 afterDot position c rest hblank l n hread ih =>
    cases htokens : tokensFrom l.isDot (position + 1 + n) (rest.drop n) with
    | error e =>
      rw [htokens] at h
      exact ih (htokens.trans h)
    | ok ts =>
      rw [htokens] at h
      cases h

/-- A source is not read past a stray character where a token has to begin. -/
theorem unreadable_of_stray {front : List Char} {ts : List Token} (hd : IsStray d)
    (h : tokensFrom afterDot position front = .ok ts) :
    ∃ p, tokensFrom afterDot position (front ++ d :: back) = .error (.unreadable d p) := by
  fun_induction tokensFrom afterDot position front generalizing ts with
  | case1 afterDot position =>
    rw [List.nil_append, tokensFrom, if_neg (by simp [hd.isBlank_eq_false]), hd.readLexeme]
    exact ⟨position, rfl⟩
  | case2 afterDot position c rest hblank ih =>
    obtain ⟨p, hp⟩ := ih h
    exact ⟨p, by rw [List.cons_append, tokensFrom, if_pos hblank, hp]⟩
  | case3 => cases h
  | case4 afterDot position c rest hblank l n hread ih =>
    obtain ⟨ts', hts', -⟩ := bind_ok_iff.mp h
    obtain ⟨p, hp⟩ := ih hts'
    -- The lexeme is read alike although more follows.
    obtain ⟨hread', hn⟩ := (readLexeme_append_iff hd).mpr hread
    refine ⟨p, ?_⟩
    rw [List.cons_append, tokensFrom, if_neg hblank, hread']
    simp only [List.drop_append_of_le_length hn, hp]
    rfl

/-- **What cannot be read**: a source is unreadable exactly if there is a stray character where a
token has to begin. -/
theorem tokensFrom_unreadable_iff {cs : List Char} :
    (∃ q p, tokensFrom afterDot position cs = .error (.unreadable q p)) ↔
      StrayFrom afterDot position cs := by
  constructor
  · rintro ⟨q, p, h⟩
    exact strayFrom_of_unreadable h
  · rintro ⟨front, d, back, rfl, hd, ts, hts⟩
    exact ⟨d, unreadable_of_stray hd hts⟩

/-! ## §4 Parsing -/

/-- **A source has a stray character** where a token has to begin: what is in front of it can
be cut into tokens. -/
def HasStray (source : String) : Prop :=
  ∃ front d back, source.toList = front ++ d :: back ∧ IsStray d ∧
    ∃ ts, tokens (String.ofList front) = .ok ts

theorem hasStray_iff {source : String} : HasStray source ↔ StrayFrom false 0 source.toList := by
  simp only [HasStray, StrayFrom, tokens, String.toList_ofList]

/-- **Source in ASCII.** -/
def IsAscii (source : String) : Prop := ∀ c ∈ source.toList, c.toNat < 128

instance : DecidablePred IsAscii := fun source =>
  inferInstanceAs (Decidable (∀ c ∈ source.toList, c.toNat < 128))

theorem IsAscii.not_hasStray {source : String} (h : IsAscii source) : ¬ HasStray source := by
  rintro ⟨front, d, back, hsource, hd, -⟩
  exact not_isStray_of_ascii (h d (by simp [hsource])) hd

/-- **How source fares**: with a stray character where a token has to begin it breaks the reader,
and else it is read or refused as malformed. -/
theorem parse_cases (source : String) :
    (HasStray source ∧ ∃ d, IsStray d ∧ parse source = .error (strayError d)) ∨
    (¬ HasStray source ∧ ((∃ e, parse source = .ok e) ∨
      ∃ what position, parse source =
        .error (.fault (.malformed what (.text source) position)))) := by
  have hstray : HasStray source ↔ ∃ q p, tokens source = .error (.unreadable q p) :=
    hasStray_iff.trans tokensFrom_unreadable_iff.symm
  cases htokens : tokens source with
  | error e =>
    have hparse : parse source = .error (e.raised source) := by
      rw [parse, read, htokens]
      rfl
    cases e with
    | unreadable q p =>
      exact .inl ⟨hstray.mpr ⟨q, p, htokens⟩, q, isStray_of_unreadable htokens, hparse⟩
    | malformed fault position =>
      refine .inr ⟨fun h => ?_, .inr ⟨_, _, hparse⟩⟩
      obtain ⟨q, p, hunreadable⟩ := hstray.mp h
      rw [htokens] at hunreadable
      cases hunreadable
  | ok ts =>
    have hnone : ¬ HasStray source := by
      intro h
      obtain ⟨q, p, hunreadable⟩ := hstray.mp h
      rw [htokens] at hunreadable
      cases hunreadable
    refine .inr ⟨hnone, ?_⟩
    -- Tokens make a tree or break the grammar.
    rw [parse_of_tokens htokens]
    cases htree : treeOf ts source.length with
    | ok tree => exact .inl ⟨_, rfl⟩
    | error e =>
      obtain ⟨fault, position, rfl⟩ := malformed_of_treeOf htree
      exact .inr ⟨_, _, rfl⟩

/-- A source breaks the reader exactly if it has a stray character where a token has to begin. -/
theorem parse_eq_strayError_iff {source : String} :
    (∃ d, IsStray d ∧ parse source = .error (strayError d)) ↔ HasStray source := by
  rcases parse_cases source with ⟨hhas, hparse⟩ | ⟨hnot, ⟨e, hparse⟩ | ⟨what, position, hparse⟩⟩
  · exact iff_of_true hparse hhas
  · exact iff_of_false (by rw [hparse]; simp) hnot
  · exact iff_of_false (by rw [hparse]; simp [strayError]) hnot

end Switchyard.Expression
