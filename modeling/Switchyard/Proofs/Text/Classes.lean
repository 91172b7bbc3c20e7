import Switchyard.Text.Blank
import Switchyard.Text.Digit
import Switchyard.Text.Letter
import Mathlib.Data.List.Basic
import Mathlib.Tactic.SplitIfs

/-!
# How the classes of characters lie to each other

The classes of characters are tables of code points. What is said here about all characters
is read off the tables: a table is asked once for a whole range of code points, on which it
says the same everywhere.

Main statements: decimal digits are digit signs (`isDigitSign_of_isDecimalDigit`), and neither digit
signs nor letters are blanks (`isBlank_eq_false_of_isDigitSign`, `isBlank_eq_false_of_isLetter`).
-/

namespace Switchyard.Text

variable {c : Char}

/-! ## §1 Ranges of code points -/

namespace Ranges

/-- What a table says about all code points from `first` up to but not including `stop`,
if that is the same. -/
def constantOn (first stop : Nat) : List Nat → Option Bool
  | [] => some false
  | turn :: rest =>
    if stop ≤ turn then some false
    else if turn ≤ first then (constantOn first stop rest).map (!·)
    else none

theorem covers_of_constantOn {first stop n : Nat} {turns : List Nat} {b : Bool}
    (h : constantOn first stop turns = some b) (hfirst : first ≤ n) (hstop : n < stop) :
    covers turns n = b := by
  induction turns generalizing b with
  | nil => exact Option.some.inj h
  | cons turn rest ih =>
    unfold constantOn at h
    split_ifs at h with hbefore hbehind
    · rw [covers, if_pos (by omega)]
      exact Option.some.inj h
    · obtain ⟨b', hb', rfl⟩ := Option.map_eq_some_iff.mp h
      rw [covers, if_neg (by omega), ih hb']

/-- The ranges of code points that a table covers. -/
def spans : List Nat → List (Nat × Nat)
  | first :: stop :: rest => (first, stop) :: spans rest
  | _ => []

/-- What a table covers whose turns come in pairs lies in one of its ranges. -/
theorem exists_span_of_covers :
    ∀ {turns : List Nat} {n : Nat}, turns.length % 2 = 0 → covers turns n = true →
    ∃ span ∈ spans turns, span.1 ≤ n ∧ n < span.2
  | [], _, _, h => by cases h
  | [_], _, hlength, _ => by simp at hlength
  | first :: stop :: rest, n, hlength, h => by
    by_cases hin : first ≤ n ∧ n < stop
    · exact ⟨(first, stop), by simp [spans], hin⟩
    -- Outside of the first range the others decide.
    have hrest : covers rest n = true := by
      simp only [covers] at h
      split_ifs at h
      · omega
      · simpa using h
    obtain ⟨span, hspan, hn⟩ :=
      exists_span_of_covers (by simp only [List.length_cons] at hlength; omega) hrest
    exact ⟨span, by simp [spans, hspan], hn⟩

end Ranges

/-! ## §2 Basic characters -/

theorem isBasicLetter_iff :
    isBasicLetter c = true ↔ 65 ≤ c.toNat ∧ c.toNat < 91 ∨ 97 ≤ c.toNat ∧ c.toNat < 123 := by
  simp only [isBasicLetter, Bool.or_eq_true, Bool.and_eq_true, decide_eq_true_eq, Char.le_def,
    UInt32.le_iff_toNat_le]
  change (97 ≤ c.toNat ∧ c.toNat ≤ 122) ∨ (65 ≤ c.toNat ∧ c.toNat ≤ 90) ↔ _
  omega

theorem isBasicDigit_iff : isBasicDigit c = true ↔ 48 ≤ c.toNat ∧ c.toNat < 58 := by
  simp only [isBasicDigit, Bool.and_eq_true, decide_eq_true_eq, Char.le_def, UInt32.le_iff_toNat_le]
  change (48 ≤ c.toNat ∧ c.toNat ≤ 57) ↔ _
  omega

/-- Basic letters are letters. -/
theorem isLetter_of_isBasicLetter (h : isBasicLetter c = true) : isLetter c = true := by
  rcases isBasicLetter_iff.mp h with ⟨hfirst, hstop⟩ | ⟨hfirst, hstop⟩
  · exact Ranges.covers_of_constantOn (by rfl) hfirst hstop
  · exact Ranges.covers_of_constantOn (by rfl) hfirst hstop

/-- Basic letters are no digit signs. -/
theorem isDigitSign_eq_false_of_isBasicLetter (h : isBasicLetter c = true) :
    isDigitSign c = false := by
  rcases isBasicLetter_iff.mp h with ⟨hfirst, hstop⟩ | ⟨hfirst, hstop⟩
  · exact Ranges.covers_of_constantOn (by rfl) hfirst hstop
  · exact Ranges.covers_of_constantOn (by rfl) hfirst hstop

/-- The value of a basic digit. -/
theorem decimalDigit?_of_isBasicDigit (h : isBasicDigit c = true) :
    decimalDigit? c = some (c.toNat - 48) := by
  obtain ⟨hfirst, hstop⟩ := isBasicDigit_iff.mp h
  have hzeros : decimalZeros = 48 :: decimalZeros.tail := rfl
  rw [decimalDigit?, hzeros, List.findSome?_cons, if_pos ⟨hfirst, hstop⟩]

theorem isDecimalDigit_of_isBasicDigit (h : isBasicDigit c = true) : isDecimalDigit c = true := by
  rw [isDecimalDigit, decimalDigit?_of_isBasicDigit h]
  rfl

theorem isBasicDigit_of_mem_toDigits {n : Nat} (h : c ∈ Nat.toDigits 10 n) :
    isBasicDigit c = true := by
  have hdigit := Nat.isDigit_of_mem_toDigits (by decide) (by decide) h
  simpa [isBasicDigit, Char.isDigit, Char.le_def] using hdigit

/-- **Decimal digits of a number** stand for it. -/
theorem decimalValue_toDigits (n : Nat) : decimalValue (Nat.toDigits 10 n) = n := by
  have hdigits : decimalValue (Nat.toDigits 10 n) = Nat.ofDigitChars 10 (Nat.toDigits 10 n) 0 := by
    rw [decimalValue, Nat.ofDigitChars_eq_foldl]
    refine List.foldl_ext _ _ _ fun m c hc => ?_
    rw [decimalDigit?_of_isBasicDigit (isBasicDigit_of_mem_toDigits hc)]
    rfl
  rw [hdigits, Nat.ofDigitChars_toDigits (by decide) (by decide)]

/-! ## §3 Digit signs, letters and blanks -/

/-- **Decimal digits are digit signs**. -/
theorem isDigitSign_of_isDecimalDigit (h : isDecimalDigit c = true) : isDigitSign c = true := by
  obtain ⟨n, hn⟩ := Option.isSome_iff_exists.mp h
  obtain ⟨first, hmem, hfirst⟩ := List.exists_of_findSome?_eq_some hn
  have htable : ∀ first ∈ decimalZeros, Ranges.constantOn first (first + 10) digitSigns.turns =
      some true := by
    decide +kernel
  split_ifs at hfirst with hin
  exact Ranges.covers_of_constantOn (htable first hmem) hin.1 hin.2

/-- What a table says that covers none of the blanks. -/
theorem eq_false_of_isBlank {ranges : Ranges} (hblank : isBlank c = true)
    (htable : ∀ span ∈ Ranges.spans blanks.turns,
      Ranges.constantOn span.1 span.2 ranges.turns = some false) :
    ranges.has c = false := by
  obtain ⟨span, hspan, hfirst, hstop⟩ := Ranges.exists_span_of_covers (by decide) hblank
  exact Ranges.covers_of_constantOn (htable span hspan) hfirst hstop

/-- **Digit signs are no blanks**. -/
theorem isBlank_eq_false_of_isDigitSign (h : isDigitSign c = true) : isBlank c = false := by
  cases hblank : isBlank c with
  | false => rfl
  | true =>
    exact absurd h
      (by simp [isDigitSign, @eq_false_of_isBlank c digitSigns hblank (by decide +kernel)])

/-- **Letters are no blanks**. -/
theorem isBlank_eq_false_of_isLetter (h : isLetter c = true) : isBlank c = false := by
  cases hblank : isBlank c with
  | false => rfl
  | true =>
    exact absurd h (by simp [isLetter, @eq_false_of_isBlank c letters hblank (by decide +kernel)])

end Switchyard.Text
