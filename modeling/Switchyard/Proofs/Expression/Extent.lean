import Switchyard.Proofs.Expression.Lexing

/-!
# How far lexemes reach

A lexeme takes the longest beginning of what is left that makes one of its kind. So it lies in
the source, and what stands behind it matters only in so far as it could have gone on with it:
a lexeme is read alike if the source is cut off behind it, and also if a character follows
that goes on with nothing.

Main statement: a lexeme is read alike whatever follows a delimiter behind it, and wherever it
stands (`readLexeme_across`).
-/

namespace Switchyard.Expression

variable {afterDot : Bool} {position place : Nat} {c d : Char} {w back behind rest : List Char}

/-! ## §1 Exponents by their parts -/

/-- The sign in front of the digits of an exponent: whether it is a minus, and how many
characters it takes. -/
def leadingSign : List Char → Bool × Nat
  | '-' :: _ => (true, 1)
  | '+' :: _ => (false, 1)
  | _ => (false, 0)

theorem leadingSign_le (cs : List Char) : (leadingSign cs).2 ≤ cs.length := by
  unfold leadingSign
  split <;> simp

theorem leadingSign_append (hw : w ≠ []) : leadingSign (w ++ back) = leadingSign w := by
  cases w with
  | nil => exact absurd rfl hw
  | cons c w =>
    by_cases hminus : c = '-'
    · simp [leadingSign, hminus]
    by_cases hplus : c = '+'
    · simp [leadingSign, hplus]
    simp [leadingSign, hminus, hplus]

/-- The exponent behind its letter, with the given digits. -/
def exponentWith (sign : Bool × Nat) (digits : List Char) : Option (Bool × List Char × Nat) :=
  if digits = [] then none else some (sign.1, digits, 1 + sign.2 + digits.length)

theorem leadingExponent_cons (he : c = 'e' ∨ c = 'E') :
    leadingExponent (c :: rest) =
      exponentWith (leadingSign rest) (leadingDigits (rest.drop (leadingSign rest).2)) := by
  rcases rest with _ | ⟨s, rest⟩
  · rcases he with rfl | rfl <;> rfl
  by_cases hminus : s = '-'
  · rcases he with rfl | rfl <;> simp [leadingExponent, leadingSign, exponentWith, hminus]
  by_cases hplus : s = '+'
  · rcases he with rfl | rfl <;> simp [leadingExponent, leadingSign, exponentWith, hplus]
  rcases he with rfl | rfl <;> simp [leadingExponent, leadingSign, exponentWith, hminus, hplus]

theorem leadingExponent_of_ne (he : ¬ (c = 'e' ∨ c = 'E')) :
    leadingExponent (c :: rest) = none := by
  obtain ⟨hsmall, hlarge⟩ := not_or.mp he
  simp [leadingExponent, hsmall, hlarge]

theorem exponentWith_eq_some {sign : Bool × Nat} {digits ds : List Char} {negative : Bool} {n : Nat}
    (h : exponentWith sign digits = some (negative, ds, n)) : n = 1 + sign.2 + digits.length := by
  unfold exponentWith at h
  split_ifs at h
  simp only [Option.some.injEq, Prod.mk.injEq] at h
  exact h.2.2.symm

/-! ## §2 Lexemes lie in the source -/

theorem length_leadingDigits_le (cs : List Char) : (leadingDigits cs).length ≤ cs.length :=
  (List.takeWhile_prefix _).length_le

theorem length_leadingFraction_lt {cs digits : List Char} (h : leadingFraction cs = some digits) :
    digits.length < cs.length := by
  unfold leadingFraction at h
  split at h
  · rename_i rest
    split_ifs at h
    obtain rfl := Option.some.inj h
    have hlength := length_leadingDigits_le rest
    simp only [List.length_cons]
    omega
  · cases h

/-- How many characters an exponent takes: its letter, its sign and its digits. -/
theorem exists_of_leadingExponent {cs digits : List Char} {negative : Bool} {n : Nat}
    (h : leadingExponent cs = some (negative, digits, n)) :
    ∃ c rest, cs = c :: rest ∧
      n = 1 + (leadingSign rest).2 + (leadingDigits (rest.drop (leadingSign rest).2)).length := by
  cases cs with
  | nil => cases h
  | cons c rest =>
    by_cases he : c = 'e' ∨ c = 'E'
    · rw [leadingExponent_cons he] at h
      exact ⟨c, rest, rfl, exponentWith_eq_some h⟩
    · rw [leadingExponent_of_ne he] at h
      cases h

theorem length_leadingExponent_le {cs digits : List Char} {negative : Bool} {n : Nat}
    (h : leadingExponent cs = some (negative, digits, n)) : n ≤ cs.length := by
  obtain ⟨c, rest, rfl, hn⟩ := exists_of_leadingExponent h
  have hsign := leadingSign_le rest
  have hlength := length_leadingDigits_le (rest.drop (leadingSign rest).2)
  rw [List.length_drop] at hlength
  rw [List.length_cons]
  omega

/-- Where the digits of a number and its fraction end. -/
def fractionEnd (cs : List Char) : Nat :=
  (leadingDigits cs).length + (match leadingFraction (cs.drop (leadingDigits cs).length) with
    | some digits => digits.length + 1
    | none => 0)

theorem length_leadingDigits_le_fractionEnd (cs : List Char) :
    (leadingDigits cs).length ≤ fractionEnd cs :=
  Nat.le_add_right ..

theorem fractionEnd_le (cs : List Char) : fractionEnd cs ≤ cs.length := by
  have hwhole := length_leadingDigits_le cs
  rw [fractionEnd]
  cases hfraction : leadingFraction (cs.drop (leadingDigits cs).length) with
  | none => exact hwhole
  | some digits =>
    have hlength := length_leadingFraction_lt hfraction
    rw [List.length_drop] at hlength
    show (leadingDigits cs).length + (digits.length + 1) ≤ cs.length
    omega

/-- The longest number at the front, by its parts. -/
theorem leadingNumeral_eq (cs : List Char) : leadingNumeral cs =
    match leadingExponent (cs.drop (fractionEnd cs)) with
    | some (negative, digits, n) =>
      ⟨leadingDigits cs, leadingFraction (cs.drop (leadingDigits cs).length),
        some (negative, digits), fractionEnd cs + n⟩
    | none =>
      ⟨leadingDigits cs, leadingFraction (cs.drop (leadingDigits cs).length), none,
        fractionEnd cs⟩ := rfl

theorem length_leadingNumeral_le (cs : List Char) : (leadingNumeral cs).length ≤ cs.length := by
  have hend := fractionEnd_le cs
  rw [leadingNumeral_eq]
  cases hexponent : leadingExponent (cs.drop (fractionEnd cs)) with
  | none => exact hend
  | some exponent =>
    obtain ⟨negative, digits, n⟩ := exponent
    have hlength := length_leadingExponent_le hexponent
    rw [List.length_drop] at hlength
    show fractionEnd cs + n ≤ cs.length
    omega

theorem fractionEnd_le_leadingNumeral (cs : List Char) :
    fractionEnd cs ≤ (leadingNumeral cs).length := by
  rw [leadingNumeral_eq]
  cases leadingExponent (cs.drop (fractionEnd cs)) with
  | none => exact Nat.le_refl _
  | some exponent => exact Nat.le_add_right ..

/-- A text takes at least its closing quote, and lies in the source. -/
theorem bounds_of_readText {quote : Char} {start n : Nat} {cs : List Char}
    (h : readText quote start position w = .ok (cs, n)) : 0 < n ∧ n ≤ w.length := by
  fun_induction readText quote start position w generalizing cs n with
  | case1 | case2 | case3 => cases h
  | case5 =>
    obtain ⟨-, rfl⟩ := Prod.mk.inj (Except.ok.inj h)
    simp
  | case4 | case6 =>
    rename_i ih
    obtain ⟨⟨cs', n'⟩, hrest, h⟩ := bind_ok_iff.mp h
    obtain ⟨-, rfl⟩ := Prod.mk.inj (Except.ok.inj h)
    obtain ⟨-, hlength⟩ := ih hrest
    simp only [List.length_cons]
    omega

/-- **A lexeme lies in the source.** -/
theorem length_readLexeme_le {l : Lexeme} {n : Nat}
    (h : readLexeme afterDot position c w = .ok (l, n)) :
    n ≤ w.length := by
  have hdigits := length_leadingDigits_le (c :: w)
  have hnumeral := length_leadingNumeral_le (c :: w)
  have hname := (List.takeWhile_prefix continuesName (l := w)).length_le
  rw [List.length_cons] at hdigits hnumeral
  unfold readLexeme at h
  split_ifs at h
  · obtain ⟨⟨cs, n'⟩, htext, h⟩ := bind_ok_iff.mp h
    obtain ⟨-, rfl⟩ := Prod.mk.inj (Except.ok.inj h)
    exact (bounds_of_readText htext).2
  all_goals
    obtain ⟨-, rfl⟩ := Prod.mk.inj (Except.ok.inj h)
    omega

/-! ## §3 Delimiters -/

/-- **A delimiter** goes on with no number and no name. -/
structure Delimits (c : Char) : Prop where
  decimal : Text.isDecimalDigit c = false
  name : continuesName c = false
  point : c ≠ '.'
  plus : c ≠ '+'

/-- Characters that begin with a delimiter, if there are any. -/
def Delimited (behind : List Char) : Prop := ∀ c, behind.head? = some c → Delimits c

theorem delimited_nil : Delimited [] := by
  intro c hc
  cases hc

theorem delimited_cons (h : Delimits c) : Delimited (c :: rest) := by
  intro d hd
  obtain rfl := Option.some.inj hd
  exact h

/-- What goes on with a name does not delimit. -/
theorem Delimits.ne (h : Delimits c) (hd : continuesName d = true) : c ≠ d := by
  rintro rfl
  rw [h.name] at hd
  cases hd

/-- **Blanks are delimiters.** -/
theorem delimits_of_isBlank (h : Text.isBlank c = true) : Delimits c := by
  have hne : ∀ {d}, Text.isBlank d = false → c ≠ d := by
    rintro d hd rfl
    rw [h] at hd
    cases hd
  have hdecimal : Text.isDecimalDigit c = false := by
    by_contra hdigit
    have hsign := Text.isDigitSign_of_isDecimalDigit (Bool.not_eq_false _ ▸ hdigit)
    exact hne (Text.isBlank_eq_false_of_isDigitSign hsign) rfl
  have hstarts : startsName c = false := by
    by_contra hstarts
    exact hne (isBlank_eq_false_of_startsName (Bool.not_eq_false _ ▸ hstarts)) rfl
  -- A basic digit would be a decimal digit.
  have hbasic : Text.isBasicDigit c = false := by
    by_contra hbasic
    have hdigit := Text.isDecimalDigit_of_isBasicDigit (Bool.not_eq_false _ ▸ hbasic)
    rw [hdecimal] at hdigit
    cases hdigit
  have hhyphen : c ≠ '-' := hne (by decide)
  exact ⟨hdecimal, by
    simp [continuesName, hstarts, hbasic, hhyphen], hne (by decide), hne (by decide)⟩

/-! ## §4 What stands behind a lexeme -/

/-- **A run of characters** that ends within some characters is the same whatever follows them that
does not go on with it. -/
theorem takeWhile_across {p : Char → Bool} (hlength : ((w ++ back).takeWhile p).length ≤ w.length)
    (hbehind : StopsAt p behind) : (w ++ behind).takeWhile p = (w ++ back).takeWhile p := by
  induction w with
  | nil =>
    have hnone : back.takeWhile p = [] := List.eq_nil_of_length_eq_zero (Nat.le_zero.mp hlength)
    have hstops : ([] ++ behind).takeWhile p = [] := takeWhile_append_of_stopsAt (by simp) hbehind
    rw [List.nil_append, List.nil_append, hnone, ← List.nil_append behind, hstops]
  | cons c w ih =>
    cases hc : p c with
    | false => simp [hc]
    | true =>
      have hrest : ((w ++ back).takeWhile p).length ≤ w.length := by simpa [hc] using hlength
      simp [hc, ih hrest]

section

variable (hbehind : Delimited behind)

include hbehind

theorem leadingDigits_across (hlength : (leadingDigits (w ++ back)).length ≤ w.length) :
    leadingDigits (w ++ behind) = leadingDigits (w ++ back) :=
  takeWhile_across hlength fun c hc => (hbehind c hc).decimal

theorem leadingFraction_of_delimited : leadingFraction behind = none := by
  unfold leadingFraction
  split
  · exact absurd rfl (hbehind '.' rfl).point
  · rfl

theorem leadingFraction_across
    (hlength : ∀ digits, leadingFraction (w ++ back) = some digits → digits.length < w.length) :
    leadingFraction (w ++ behind) = leadingFraction (w ++ back) := by
  cases w with
  | nil =>
    rw [List.nil_append, List.nil_append, leadingFraction_of_delimited hbehind]
    cases hfraction : leadingFraction back with
    | none => rfl
    | some digits => exact absurd (hlength digits hfraction) (Nat.not_lt_zero _)
  | cons c w =>
    by_cases hpoint : c = '.'
    · subst hpoint
      have hdigits : (leadingDigits (w ++ back)).length ≤ w.length := by
        by_cases hnone : leadingDigits (w ++ back) = []
        · simp [hnone]
        · exact Nat.lt_succ_iff.mp (hlength _ (by simp [leadingFraction, hnone]))
      simp [leadingFraction, leadingDigits_across hbehind hdigits]
    · simp [leadingFraction, hpoint]

theorem leadingExponent_of_delimited : leadingExponent behind = none := by
  cases behind with
  | nil => rfl
  | cons c behind =>
    have hc := hbehind c rfl
    exact leadingExponent_of_ne (not_or.mpr ⟨hc.ne (by decide), hc.ne (by decide)⟩)

theorem leadingSign_of_delimited : leadingSign behind = (false, 0) := by
  unfold leadingSign
  split
  · exact absurd rfl ((hbehind '-' rfl).ne (by decide))
  · exact absurd rfl (hbehind '+' rfl).plus
  · rfl

/-- The exponent behind its letter. -/
theorem exponentWith_across
    (hlength : ∀ negative digits n, exponentWith (leadingSign (w ++ back))
      (leadingDigits ((w ++ back).drop (leadingSign (w ++ back)).2)) = some (negative, digits, n) →
      n ≤ w.length + 1) :
    exponentWith (leadingSign (w ++ behind))
      (leadingDigits ((w ++ behind).drop (leadingSign (w ++ behind)).2)) =
      exponentWith (leadingSign (w ++ back))
        (leadingDigits ((w ++ back).drop (leadingSign (w ++ back)).2)) := by
  -- With its letter and its sign the exponent ends within the characters, if there is one.
  have hdigits : leadingDigits ((w ++ back).drop (leadingSign (w ++ back)).2) ≠ [] →
      (leadingSign (w ++ back)).2 +
        (leadingDigits ((w ++ back).drop (leadingSign (w ++ back)).2)).length ≤ w.length := by
    intro hsome
    have hn := hlength _ _ _ (if_neg hsome)
    omega
  by_cases hw : w = []
  · subst hw
    simp only [List.nil_append] at hdigits ⊢
    have hnone : leadingDigits (back.drop (leadingSign back).2) = [] := by
      by_contra hsome
      have hlength := hdigits hsome
      exact hsome (List.eq_nil_of_length_eq_zero (by simp only [List.length_nil] at hlength; omega))
    have hnone' : leadingDigits behind = [] := by
      have := @leadingDigits_across [] [] behind hbehind (Nat.le_refl _)
      simpa [leadingDigits] using this
    rw [leadingSign_of_delimited hbehind, hnone, List.drop_zero, hnone']
    rfl
  · have hsign := leadingSign_le w
    have hback : leadingSign (w ++ back) = leadingSign w := leadingSign_append hw
    have hbehind' : leadingSign (w ++ behind) = leadingSign w := leadingSign_append hw
    rw [hback, List.drop_append_of_le_length hsign] at hdigits
    rw [hback, hbehind', List.drop_append_of_le_length hsign, List.drop_append_of_le_length hsign]
    rw [leadingDigits_across hbehind]
    by_cases hnone : leadingDigits (w.drop (leadingSign w).2 ++ back) = []
    · simp [hnone]
    · have hlength := hdigits hnone
      rw [List.length_drop]
      omega

theorem leadingExponent_across
    (hlength : ∀ negative digits n, leadingExponent (w ++ back) = some (negative, digits, n) →
      n ≤ w.length) :
    leadingExponent (w ++ behind) = leadingExponent (w ++ back) := by
  cases w with
  | nil =>
    rw [List.nil_append, List.nil_append, leadingExponent_of_delimited hbehind]
    cases hexponent : leadingExponent back with
    | none => rfl
    | some exponent =>
      obtain ⟨negative, digits, n⟩ := exponent
      obtain ⟨c, rest, rfl, hpos⟩ := exists_of_leadingExponent hexponent
      have hn := hlength negative digits n hexponent
      simp only [List.length_nil] at hn
      omega
  | cons c w =>
    rw [List.cons_append] at hlength
    rw [List.cons_append, List.cons_append]
    by_cases he : c = 'e' ∨ c = 'E'
    · rw [leadingExponent_cons he] at hlength
      rw [leadingExponent_cons he, leadingExponent_cons he]
      exact exponentWith_across hbehind hlength
    · rw [leadingExponent_of_ne he, leadingExponent_of_ne he]

theorem fractionEnd_across (hlength : fractionEnd (w ++ back) ≤ w.length) :
    leadingDigits (w ++ behind) = leadingDigits (w ++ back) ∧
      leadingFraction ((w ++ behind).drop (leadingDigits (w ++ back)).length) =
        leadingFraction ((w ++ back).drop (leadingDigits (w ++ back)).length) ∧
      fractionEnd (w ++ behind) = fractionEnd (w ++ back) := by
  have hwhole := Nat.le_trans (length_leadingDigits_le_fractionEnd (w ++ back)) hlength
  have hdigits := leadingDigits_across hbehind hwhole
  have hfraction : leadingFraction ((w ++ behind).drop (leadingDigits (w ++ back)).length) =
      leadingFraction ((w ++ back).drop (leadingDigits (w ++ back)).length) := by
    rw [List.drop_append_of_le_length hwhole, List.drop_append_of_le_length hwhole]
    refine leadingFraction_across hbehind fun digits hdigits => ?_
    rw [fractionEnd, List.drop_append_of_le_length hwhole, hdigits] at hlength
    have hlength : (leadingDigits (w ++ back)).length + (digits.length + 1) ≤ w.length := hlength
    rw [List.length_drop]
    omega
  refine ⟨hdigits, hfraction, ?_⟩
  rw [fractionEnd, fractionEnd, hdigits, hfraction]

/-- **A number is the same** whatever delimiter follows. -/
theorem leadingNumeral_across (hlength : (leadingNumeral (w ++ back)).length ≤ w.length) :
    leadingNumeral (w ++ behind) = leadingNumeral (w ++ back) := by
  have hend := Nat.le_trans (fractionEnd_le_leadingNumeral (w ++ back)) hlength
  obtain ⟨hdigits, hfraction, hends⟩ := fractionEnd_across hbehind hend
  have hexponent : leadingExponent ((w ++ behind).drop (fractionEnd (w ++ back))) =
      leadingExponent ((w ++ back).drop (fractionEnd (w ++ back))) := by
    rw [List.drop_append_of_le_length hend, List.drop_append_of_le_length hend]
    refine leadingExponent_across hbehind fun negative digits n hexponent => ?_
    rw [leadingNumeral_eq, List.drop_append_of_le_length hend, hexponent] at hlength
    have hlength : fractionEnd (w ++ back) + n ≤ w.length := hlength
    rw [List.length_drop]
    omega
  rw [leadingNumeral_eq, leadingNumeral_eq, hends, hdigits, hfraction, hexponent]

end

/-- **A text is read alike** whatever follows its closing quote, and wherever it stands. -/
theorem readText_across {quote : Char} {start n : Nat} {cs : List Char}
    (h : readText quote start position (w ++ back) = .ok (cs, n)) (hlength : n ≤ w.length)
    (start' place : Nat) (behind : List Char) :
    readText quote start' place (w ++ behind) = .ok (cs, n) := by
  fun_induction readText quote start position w generalizing cs n place with
  | case1 position =>
    -- No text lies in no characters.
    obtain ⟨hpos, -⟩ := bounds_of_readText h
    simp only [List.length_nil] at hlength
    omega
  | case2 position =>
    -- A backslash takes the next character with it.
    cases back with
    | nil => cases h
    | cons e back =>
      simp only [List.cons_append, List.nil_append, readText] at h
      split at h
      · cases h
      · obtain ⟨⟨cs', n'⟩, -, h⟩ := bind_ok_iff.mp h
        obtain ⟨-, rfl⟩ := Prod.mk.inj (Except.ok.inj h)
        simp at hlength
  | case3 position e rest hescape =>
    simp only [List.cons_append, readText, hescape] at h
    cases h
  | case4 position e rest c hescape ih =>
    simp only [List.cons_append, readText, hescape] at h ⊢
    obtain ⟨⟨cs', n'⟩, hrest, h⟩ := bind_ok_iff.mp h
    obtain ⟨rfl, rfl⟩ := Prod.mk.inj (Except.ok.inj h)
    rw [ih hrest (by simpa using hlength) (place + 2)]
    rfl
  | case5 position rest =>
    simp only [List.cons_append, readText, ↓reduceIte] at h ⊢
    exact h
  | case6 position c rest hbackslash hquote ih =>
    simp only [List.cons_append, readText, hquote, ↓reduceIte] at h ⊢
    obtain ⟨⟨cs', n'⟩, hrest, h⟩ := bind_ok_iff.mp h
    obtain ⟨rfl, rfl⟩ := Prod.mk.inj (Except.ok.inj h)
    rw [ih hrest (by simpa using hlength) (place + 1)]
    rfl

/-- **A lexeme is read alike** whatever follows a delimiter behind it, and wherever it stands. -/
theorem readLexeme_across {l : Lexeme} {n : Nat}
    (h : readLexeme afterDot position c (w ++ back) = .ok (l, n)) (hlength : n ≤ w.length)
    (hbehind : Delimited behind) (place : Nat) :
    readLexeme afterDot place c (w ++ behind) = .ok (l, n) := by
  unfold readLexeme at h ⊢
  split_ifs at h ⊢ with hquote hdigit hdecimal hdot hletter hname
  · obtain ⟨⟨cs, n'⟩, htext, h⟩ := bind_ok_iff.mp h
    obtain ⟨rfl, rfl⟩ := Prod.mk.inj (Except.ok.inj h)
    rw [readText_across htext hlength]
    rfl
  · obtain ⟨rfl, rfl⟩ := Prod.mk.inj (Except.ok.inj h)
    have hdigits : leadingDigits (c :: w ++ behind) = leadingDigits (c :: w ++ back) :=
      leadingDigits_across hbehind
        (by simp only [List.length_cons, List.cons_append] at hlength ⊢; omega)
    simp only [List.cons_append] at hdigits
    rw [hdigits]
  · obtain ⟨rfl, rfl⟩ := Prod.mk.inj (Except.ok.inj h)
    have hnumeral : leadingNumeral (c :: w ++ behind) = leadingNumeral (c :: w ++ back) :=
      leadingNumeral_across hbehind
        (by simp only [List.length_cons, List.cons_append] at hlength ⊢; omega)
    simp only [List.cons_append] at hnumeral
    rw [hnumeral]
  · obtain ⟨rfl, rfl⟩ := Prod.mk.inj (Except.ok.inj h)
    rw [takeWhile_across hlength fun c hc => (hbehind c hc).name]
  all_goals exact h

end Switchyard.Expression
