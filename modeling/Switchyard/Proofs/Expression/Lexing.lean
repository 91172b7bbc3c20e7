import Switchyard.Expression.Token
import Switchyard.Proofs.Text.Classes
import Switchyard.Proofs.Value.Extension
import Mathlib.Tactic.Cases

/-!
# Reading lexemes

Each kind of lexeme is read from the characters that spell it, as long as the next
character does not go on with it. Where the characters stand in the source only matters for
the places of the tokens.

Main statements: `readLexeme_name`, `readLexeme_index`, `readLexeme_integer` and `readLexeme_text`;
and `Yields.lexeme`, by which lexemes are read one after another.
-/

namespace Switchyard.Expression

variable {afterDot : Bool} {position : Nat} {c : Char} {tail rest : List Char}

/-! ## §1 Runs of characters -/

/-- The next character, if there is one, is not of a class. -/
def StopsAt (p : Char → Bool) (rest : List Char) : Prop := ∀ c, rest.head? = some c → p c = false

/-- A run of characters ends where what follows is not of their class. -/
theorem takeWhile_append_of_stopsAt {p : Char → Bool} (htail : ∀ d ∈ tail, p d = true)
    (hrest : StopsAt p rest) : (tail ++ rest).takeWhile p = tail := by
  have hnone : rest.takeWhile p = [] := by
    cases rest with
    | nil => rfl
    | cons d rest => simp [hrest d rfl]
  rw [List.takeWhile_append_of_pos htail, hnone, List.append_nil]

/-! ## §2 Lexemes -/

theorem isDigitSign_eq_false_of_startsName (h : startsName c = true) :
    Text.isDigitSign c = false := by
  rcases Bool.or_eq_true_iff.mp h with hunderscore | hletter
  · obtain rfl : c = '_' := by simpa using hunderscore
    rfl
  · exact Text.isDigitSign_eq_false_of_isBasicLetter hletter

/-- What can start a name is no blank. -/
theorem isBlank_eq_false_of_startsName (h : startsName c = true) : Text.isBlank c = false := by
  rcases Bool.or_eq_true_iff.mp h with hunderscore | hletter
  · obtain rfl : c = '_' := by simpa using hunderscore
    rfl
  · exact Text.isBlank_eq_false_of_isLetter (Text.isLetter_of_isBasicLetter hletter)

/-- A name is read up to a character that does not go on with it. -/
theorem readLexeme_name (hc : startsName c = true) (htail : ∀ d ∈ tail, continuesName d = true)
    (hrest : StopsAt continuesName rest) :
    readLexeme afterDot position c (tail ++ rest) =
      .ok (.name (String.ofList (c :: tail)), tail.length) := by
  have hquote : ¬ (c = '"' ∨ c = '\'') := by
    rintro (rfl | rfl) <;> cases hc
  have hletter : c = '_' ∨ Text.isLetter c = true := by
    rcases Bool.or_eq_true_iff.mp hc with hunderscore | hletter
    · exact .inl (by simpa using hunderscore)
    · exact .inr (Text.isLetter_of_isBasicLetter hletter)
  simp only [readLexeme, if_neg hquote, isDigitSign_eq_false_of_startsName hc,
    Bool.false_eq_true, ↓reduceIte, if_pos hletter, hc, not_true_eq_false,
      takeWhile_append_of_stopsAt htail hrest]

/-- A basic digit is no quote. -/
theorem not_quote_of_isBasicDigit (h : Text.isBasicDigit c = true) : ¬ (c = '"' ∨ c = '\'') := by
  rintro (rfl | rfl) <;> cases h

theorem leadingDigits_append (hdigits : ∀ d ∈ tail, Text.isBasicDigit d = true)
    (hrest : StopsAt Text.isDecimalDigit rest) : leadingDigits (tail ++ rest) = tail :=
  takeWhile_append_of_stopsAt (fun d hd => Text.isDecimalDigit_of_isBasicDigit (hdigits d hd)) hrest

/-- The place of an item is read up to a character that is no digit. -/
theorem readLexeme_index (hdigits : ∀ d ∈ c :: tail, Text.isBasicDigit d = true)
    (hrest : StopsAt Text.isDecimalDigit rest) :
    readLexeme true position c (tail ++ rest) =
      .ok (.index (Text.decimalValue (c :: tail)), tail.length) := by
  have hc := hdigits c (List.mem_cons_self ..)
  have hdecimal := Text.isDecimalDigit_of_isBasicDigit hc
  have hleading : leadingDigits (c :: (tail ++ rest)) = c :: tail :=
    leadingDigits_append hdigits hrest
  simp [readLexeme, not_quote_of_isBasicDigit hc, Text.isDigitSign_of_isDecimalDigit hdecimal,
    hdecimal, hleading]

/-- What cannot go on with an integer: a digit, and what begins a fraction or an exponent. -/
def continuesNumber (c : Char) : Bool := Text.isDecimalDigit c || c = '.' || c = 'e' || c = 'E'

/-- An integer is read up to a character that does not go on with a number. -/
theorem readLexeme_integer (hdigits : ∀ d ∈ c :: tail, Text.isBasicDigit d = true)
    (hrest : StopsAt continuesNumber rest) :
    readLexeme false position c (tail ++ rest) =
      .ok (.integer (Text.decimalValue (c :: tail)), tail.length) := by
  have hc := hdigits c (List.mem_cons_self ..)
  have hdecimal := Text.isDecimalDigit_of_isBasicDigit hc
  have hstops : StopsAt Text.isDecimalDigit rest := by
    intro d hd
    have := hrest d hd
    simp only [continuesNumber, Bool.or_eq_false_iff] at this
    exact this.1.1.1
  have hleading : leadingDigits (c :: (tail ++ rest)) = c :: tail :=
    leadingDigits_append hdigits hstops
  -- Neither a fraction nor an exponent follows.
  have hfraction : leadingFraction rest = none := by
    unfold leadingFraction
    split
    · exact absurd (hrest '.' rfl) (by decide)
    · rfl
  have hexponent : leadingExponent rest = none := by
    unfold leadingExponent
    split
    · exact absurd (hrest 'e' rfl) (by decide)
    · exact absurd (hrest 'E' rfl) (by decide)
    · rfl
  have hnumeral : leadingNumeral (c :: (tail ++ rest)) =
      ⟨c :: tail, none, none, tail.length + 1⟩ := by
    simp [leadingNumeral, hleading, hfraction, hexponent]
  simp [readLexeme, not_quote_of_isBasicDigit hc, Text.isDigitSign_of_isDecimalDigit hdecimal,
    hdecimal, hnumeral, Numeral.lexeme]

/-- How a character is written in a text between double quotes. -/
def escapedChar (c : Char) : List Char := if c = '\\' ∨ c = '"' then ['\\', c] else [c]

/-- The characters of a text are read up to the closing quote. -/
theorem readText_escaped (start : Nat) (cs rest : List Char) :
    readText '"' start position (cs.flatMap escapedChar ++ '"' :: rest) =
      .ok (cs, (cs.flatMap escapedChar).length + 1) := by
  induction cs generalizing position with
  | nil => simp [readText]
  | cons c cs ih =>
    rw [List.flatMap_cons, List.append_assoc]
    by_cases hescaped : c = '\\' ∨ c = '"'
    · have hescape : escaped? c = some c := by
        rcases hescaped with rfl | rfl <;> rfl
      have hwritten : escapedChar c = ['\\', c] := if_pos hescaped
      simp [hwritten, readText, hescape, ih, bind, Except.bind, pure, Except.pure]
    · obtain ⟨hbackslash, hquote⟩ := not_or.mp hescaped
      have hwritten : escapedChar c = [c] := if_neg hescaped
      simp [hwritten, readText, hquote, ih, bind, Except.bind, pure, Except.pure]

/-- A text between double quotes is read. -/
theorem readLexeme_text (cs rest : List Char) :
    readLexeme afterDot position '"' (cs.flatMap escapedChar ++ '"' :: rest) =
      .ok (.text (String.ofList cs), (cs.flatMap escapedChar).length + 1) := by
  rw [readLexeme, if_pos (.inl rfl), readText_escaped]
  rfl

/-! ## §3 One lexeme after another -/

/-- **Characters yield lexemes**: wherever they stand they are cut into tokens
with these lexemes. -/
def Yields (afterDot : Bool) (cs : List Char) (ls : List Lexeme) : Prop :=
  ∀ position, ∃ ts, tokensFrom afterDot position cs = .ok ts ∧ ts.map (·.lexeme) = ls

namespace Yields

variable {cs : List Char} {ls : List Lexeme}

theorem nil : Yields afterDot [] [] := fun _ => ⟨[], by rw [tokensFrom], rfl⟩

/-- A blank is dropped. -/
theorem blank (hc : Text.isBlank c = true) (h : Yields afterDot cs ls) :
    Yields afterDot (c :: cs) ls := by
  intro position
  obtain ⟨ts, hts, hlexemes⟩ := h (position + 1)
  exact ⟨ts, by rw [tokensFrom, if_pos hc, hts], hlexemes⟩

/-- **A lexeme is read** and then the others. -/
theorem lexeme {l : Lexeme} (hc : Text.isBlank c = false)
    (hread : ∀ position, readLexeme afterDot position c (tail ++ rest) = .ok (l, tail.length))
    (h : Yields l.isDot rest ls) : Yields afterDot (c :: (tail ++ rest)) (l :: ls) := by
  intro position
  obtain ⟨ts, hts, hlexemes⟩ := h (position + 1 + tail.length)
  refine ⟨⟨l, position, position + 1 + tail.length⟩ :: ts, ?_, by simp [hlexemes]⟩
  rw [tokensFrom, if_neg (by simp [hc]), hread]
  simp only [List.drop_left, hts]
  rfl

/-- A lexeme of one character is read and then the others. -/
theorem sign {l : Lexeme} (hc : Text.isBlank c = false)
    (hread : ∀ position, readLexeme afterDot position c rest = .ok (l, 0))
    (h : Yields l.isDot rest ls) :
    Yields afterDot (c :: rest) (l :: ls) :=
  @lexeme afterDot c [] rest ls l hc hread h

end Yields

end Switchyard.Expression
