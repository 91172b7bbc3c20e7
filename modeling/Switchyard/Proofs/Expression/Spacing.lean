import Switchyard.Proofs.Expression.Extent
import Switchyard.Proofs.Expression.Parsing

/-!
# Blanks between tokens

Blanks between tokens, before the first and behind the last one mean nothing: source can be spaced
out at any boundary of its tokens. Blanks are delimiters, so no lexeme reaches across them, and a
lexeme that came to its end before the boundary cannot have needed what follows it.

Main statement: source that is spaced out has the same lexemes, and is parsed
alike (`spaced_out_alike`).
-/

namespace Switchyard.Expression

variable {afterDot : Bool} {position : Nat} {c : Char} {w front back behind : List Char}
  {ts ts' : List Token} {ls : List Lexeme} {l : Lexeme} {n length length' : Nat}

/-! ## §1 What characters yield -/

theorem readLexeme_of_place (h : readLexeme afterDot position c w = .ok (l, n)) (place : Nat) :
    readLexeme afterDot place c w = .ok (l, n) := by
  have hcut : readLexeme afterDot position c (w ++ []) = .ok (l, n) := by rwa [List.append_nil]
  simpa using readLexeme_across hcut (length_readLexeme_le h) delimited_nil place

theorem Yields.of_readLexeme (hc : Text.isBlank c = false)
    (hread : ∀ place, readLexeme afterDot place c w = .ok (l, n))
    (h : Yields l.isDot (w.drop n) ls) : Yields afterDot (c :: w) (l :: ls) := by
  intro position
  obtain ⟨ts, hts, hlexemes⟩ := h (position + 1 + n)
  refine ⟨⟨l, position, position + 1 + n⟩ :: ts, ?_, by simp [hlexemes]⟩
  rw [tokensFrom, if_neg (by simp [hc]), hread]
  simp only [hts]
  rfl

/-- **Characters yield their lexemes** wherever they stand. -/
theorem yields_of_tokensFrom {cs : List Char} (h : tokensFrom afterDot position cs = .ok ts) :
    Yields afterDot cs (ts.map (·.lexeme)) := by
  fun_induction tokensFrom afterDot position cs generalizing ts with
  | case1 =>
    obtain rfl := Except.ok.inj h
    exact .nil
  | case2 afterDot position c rest hblank ih => exact .blank hblank (ih h)
  | case3 => cases h
  | case4 afterDot position c rest hblank l n hread ih =>
    obtain ⟨ts', hts', h⟩ := bind_ok_iff.mp h
    obtain rfl := Except.ok.inj h
    exact .of_readLexeme (by simpa using hblank) (readLexeme_of_place hread) (ih hts')

/-- Blanks in front yield nothing. -/
theorem Yields.blanks {blanks : List Char} (hblanks : ∀ c ∈ blanks, Text.isBlank c = true)
    (h : Yields afterDot back ls) : Yields afterDot (blanks ++ back) ls := by
  induction blanks with
  | nil => exact h
  | cons c blanks ih =>
    obtain ⟨hc, hrest⟩ := List.forall_mem_cons.mp hblanks
    exact .blank hc (ih hrest)

/-! ## §2 Boundaries -/

/-- **A boundary** of tokens: a place that lies within none of them. -/
def IsBoundary (ts : List Token) (place : Nat) : Prop := ∀ t ∈ ts, place ≤ t.start ∨ t.stop ≤ place

instance : DecidablePred (IsBoundary ts) := fun place =>
  inferInstanceAs (Decidable (∀ t ∈ ts, place ≤ t.start ∨ t.stop ≤ place))

/-- **What stands behind a boundary** can be changed to what begins with a delimiter
and yields the same. -/
theorem yields_of_boundary {afterDot : Bool} {position : Nat} {front : List Char} {ts : List Token}
    (h : tokensFrom afterDot position (front ++ back) = .ok ts)
    (hboundary : IsBoundary ts (position + front.length)) (hbehind : Delimited behind)
    (hyields : ∀ {afterDot ls}, Yields afterDot back ls → Yields afterDot behind ls) :
    Yields afterDot (front ++ behind) (ts.map (·.lexeme)) := by
  -- The recursion is on what stands before the boundary, from one lexeme to the next.
  match front with
  | [] => exact hyields (yields_of_tokensFrom h)
  | c :: front =>
    rw [List.length_cons] at hboundary
    rw [List.cons_append, tokensFrom] at h
    by_cases hblank : Text.isBlank c = true
    · rw [if_pos hblank] at h
      refine .blank hblank (yields_of_boundary h ?_ hbehind hyields)
      rwa [Nat.add_assoc, Nat.add_comm 1]
    · rw [if_neg hblank] at h
      cases hread : readLexeme afterDot position c (front ++ back) with
      | error e =>
        rw [hread] at h
        cases h
      | ok result =>
        obtain ⟨l, n⟩ := result
        rw [hread] at h
        obtain ⟨ts', hts', h⟩ := bind_ok_iff.mp h
        obtain rfl := Except.ok.inj h
        obtain ⟨hfirst, hrest⟩ := List.forall_mem_cons.mp hboundary
        -- The boundary lies behind the first character, and so behind the
        -- lexeme that begins with it.
        have hn : n ≤ front.length := by
          rcases hfirst with hstart | hstop
          · simp only at hstart
            omega
          · simp only at hstop
            omega
        rw [List.drop_append_of_le_length hn] at hts'
        have hplace : position + 1 + n + (front.drop n).length = position + (front.length + 1) := by
          rw [List.length_drop]
          omega
        have hlater := yields_of_boundary hts' (by rw [hplace]; exact hrest) hbehind hyields
        rw [← List.drop_append_of_le_length hn] at hlater
        exact .of_readLexeme (by simpa using hblank) (readLexeme_across hread hn hbehind) hlater
termination_by front.length
decreasing_by
  · simp
  · simp only [List.length_cons, List.length_drop]
    omega

/-- **Source that is spaced out** at a boundary yields the same lexemes. -/
theorem yields_spaced {blanks : List Char}
    (h : tokensFrom afterDot position (front ++ back) = .ok ts)
    (hboundary : IsBoundary ts (position + front.length))
    (hblanks : ∀ c ∈ blanks, Text.isBlank c = true) :
    Yields afterDot (front ++ (blanks ++ back)) (ts.map (·.lexeme)) := by
  cases blanks with
  | nil => exact yields_of_tokensFrom h
  | cons c blanks =>
    have hc : Text.isBlank c = true := hblanks c (List.mem_cons_self ..)
    exact yields_of_boundary h hboundary (delimited_cons (delimits_of_isBlank hc)) (.blanks hblanks)

/-! ## §3 Parsing -/

/-- Tokens with the same lexemes make the same tree, or none. -/
theorem treeOf_ok_iff_of_lexemes {tree : Tree} (h : ts.map (·.lexeme) = ts'.map (·.lexeme)) :
    treeOf ts length = .ok tree ↔ treeOf ts' length' = .ok tree := by
  have himp : ∀ {ts ts' : List Token} {length length' : Nat}, ts.map (·.lexeme) =
      ts'.map (·.lexeme) →
      treeOf ts length = .ok tree → treeOf ts' length' = .ok tree := by
    intro ts ts' length length' h htree
    obtain ⟨e, hlexemes, rfl⟩ := derives_of_treeOf htree
    exact treeOf_of_derives (h.symm.trans hlexemes.symm)
  exact ⟨himp h, himp h.symm⟩

/-- **Sources that are parsed alike**: both to one tree, or both are refused as malformed. -/
def ParsedAlike (source source' : String) : Prop :=
  (∃ tree, parse source = .ok ⟨source, tree⟩ ∧ parse source' = .ok ⟨source', tree⟩) ∨
  ((∃ what place, parse source = .error (.fault (.malformed what (.text source) place))) ∧
    ∃ what place, parse source' = .error (.fault (.malformed what (.text source') place)))

theorem parse_of_treeOf_error {source : String} {e : ReadError} (h : tokens source = .ok ts)
    (htree : treeOf ts source.length = .error e) :
    ∃ what place, parse source = .error (.fault (.malformed what (.text source) place)) := by
  obtain ⟨fault, position, rfl⟩ := malformed_of_treeOf htree
  exact ⟨_, _, by rw [parse_of_tokens h, htree]; rfl⟩

/-- Sources with the same lexemes are parsed alike. -/
theorem parsedAlike_of_lexemes {source source' : String} (h : tokens source = .ok ts)
    (h' : tokens source' = .ok ts') (hlexemes : ts.map (·.lexeme) = ts'.map (·.lexeme)) :
    ParsedAlike source source' := by
  cases htree : treeOf ts source.length with
  | ok tree =>
    have htree' : treeOf ts' source'.length = .ok tree :=
      (treeOf_ok_iff_of_lexemes hlexemes).mp htree
    exact .inl ⟨tree, by rw [parse_of_tokens h, htree], by rw [parse_of_tokens h', htree']⟩
  | error e =>
    cases htree' : treeOf ts' source'.length with
    | ok tree =>
      rw [(treeOf_ok_iff_of_lexemes hlexemes).mpr htree'] at htree
      cases htree
    | error e' => exact .inr ⟨parse_of_treeOf_error h htree, parse_of_treeOf_error h' htree'⟩

/-- **Blanks between tokens mean nothing**: if source can be cut into tokens, then with any blanks
put in at a boundary of them, be it between two tokens, before the first or behind the last one, it
can be cut into tokens with the same lexemes, and is parsed alike. -/
theorem spaced_out_alike {front blanks back : String} (h : tokens (front ++ back) = .ok ts)
    (hboundary : IsBoundary ts front.length)
    (hblanks : ∀ c ∈ blanks.toList, Text.isBlank c = true) :
    ∃ ts', tokens (front ++ blanks ++ back) = .ok ts' ∧ ts'.map (·.lexeme) = ts.map (·.lexeme) ∧
      ParsedAlike (front ++ back) (front ++ blanks ++ back) := by
  have hchars : tokensFrom false 0 (front.toList ++ back.toList) = .ok ts := by
    rw [← String.toList_append]
    exact h
  have hplace : IsBoundary ts (0 + front.toList.length) := by
    rwa [Nat.zero_add, String.length_toList]
  obtain ⟨ts', hts', hlexemes⟩ := yields_spaced hchars hplace hblanks 0
  have htokens : tokens (front ++ blanks ++ back) = .ok ts' := by
    rw [tokens, String.toList_append, String.toList_append, List.append_assoc]
    exact hts'
  exact ⟨ts', htokens, hlexemes, parsedAlike_of_lexemes h htokens hlexemes.symm⟩

/-- The tokens of `a.7`. -/
def placeTokens : List Token := [⟨.name "a", 0, 1⟩, ⟨.dot, 1, 2⟩, ⟨.index 7, 2, 3⟩]

/-- A digit behind a dot is the place of an item, also with blanks between them. -/
theorem spaced_out_place :
    tokens ("a." ++ "7") = .ok placeTokens ∧ IsBoundary placeTokens 2 ∧
      (∀ c ∈ " \t".toList, Text.isBlank c = true) ∧
      ∃ ts, tokens ("a." ++ " \t" ++ "7") = .ok ts ∧
        ts.map (·.lexeme) = [.name "a", .dot, .index 7] ∧
        ParsedAlike ("a." ++ "7") ("a." ++ " \t" ++ "7") := by
  have htokens : tokens ("a." ++ "7") = .ok placeTokens := by cbv
  have hboundary : IsBoundary placeTokens 2 := by decide
  have hblanks : ∀ c ∈ " \t".toList, Text.isBlank c = true := by
    have hspace : Text.isBlank ' ' = true := rfl
    have htab : Text.isBlank '\t' = true := rfl
    simp [hspace, htab]
  exact ⟨htokens, hboundary, hblanks, spaced_out_alike htokens hboundary hblanks⟩

end Switchyard.Expression
