import Mathlib.Data.List.Pairwise
import Switchyard.Expression.Parser
import Switchyard.Proofs.Expression.Extent

/-!
# What tokens take of the source

Reading goes over the source once: it drops blanks and otherwise takes the characters of one token
after another, until it comes to the end. So the end is found where the source ends, the tokens
stand one behind the other, and what lies between them is blank. Each token is read from its own
characters: these are all that its lexeme needs, and there are none that it does not need.

Main statement: the tokens of a source and its end cover it (`tokens_cover`).
-/

namespace Switchyard.Expression

variable {afterDot : Bool} {position place n : Nat} {c : Char} {cs rest source : List Char}
  {l : Lexeme} {t : Token} {ts : List Token}

/-! ## §1 Pieces of source -/

/-- A piece of source: a token, or the end. -/
inductive Piece
  | token (t : Token)
  | ending (position : Nat)

/-- The pieces of some source from a position on. The end is put where the reading comes to it. -/
def piecesFrom (afterDot : Bool) (position : Nat) : List Char → Except ReadError (List Piece)
  | [] => .ok [.ending position]
  | c :: rest =>
    if Text.isBlank c then piecesFrom afterDot (position + 1) rest
    else
      match readLexeme afterDot position c rest with
      | .error e => .error e
      | .ok (lexeme, n) => do
        let pieces ← piecesFrom lexeme.isDot (position + 1 + n) (rest.drop n)
        pure (.token ⟨lexeme, position, position + 1 + n⟩ :: pieces)
termination_by cs => cs.length
decreasing_by all_goals simp [List.length_drop]; try omega

/-- The pieces of a source: its tokens, and where it ends. -/
def pieces (source : String) : Except ReadError (List Piece) := piecesFrom false 0 source.toList

/-- Tokens and the end behind them. -/
def withEnding (ending : Nat) (ts : List Token) : List Piece := ts.map .token ++ [.ending ending]

/-- **The end is found where the source ends**, behind the tokens. -/
theorem piecesFrom_eq (afterDot : Bool) (position : Nat) (cs : List Char) :
    piecesFrom afterDot position cs =
      (tokensFrom afterDot position cs).map (withEnding (position + cs.length)) := by
  fun_induction tokensFrom afterDot position cs with
  | case1 =>
    rw [piecesFrom]
    rfl
  | case2 afterDot position c rest hblank ih =>
    rw [piecesFrom, if_pos hblank, ih, List.length_cons, Nat.add_assoc, Nat.add_comm 1]
  | case3 afterDot position c rest hblank e hread =>
    rw [piecesFrom, if_neg hblank, hread]
    rfl
  | case4 afterDot position c rest hblank l n hread ih =>
    -- The lexeme lies in the source, so that the reading does not get beyond its end.
    have hn := length_readLexeme_le hread
    have hend : position + 1 + n + (rest.drop n).length = position + (c :: rest).length := by
      rw [List.length_drop, List.length_cons]
      omega
    rw [piecesFrom, if_neg hblank, hread]
    simp only [ih, hend]
    cases tokensFrom l.isDot (position + 1 + n) (rest.drop n) <;> rfl

/-- The pieces of a source are its tokens and its end. -/
theorem pieces_eq (source : String) :
    pieces source = (tokens source).map (withEnding source.length) := by
  rw [pieces, piecesFrom_eq, Nat.zero_add, String.length_toList]
  rfl

/-- The pieces tell the tokens and the end. -/
theorem withEnding_inj {ending ending' : Nat} {ts' : List Token}
    (h : withEnding ending ts = withEnding ending' ts') :
    ts = ts' ∧ ending = ending' := by
  obtain ⟨htokens, hending⟩ := List.append_inj' h rfl
  have htoken : Function.Injective Piece.token := fun _ _ => Piece.token.inj
  exact ⟨List.map_injective_iff.mpr htoken htokens,
    Piece.ending.inj (List.singleton_inj.mp hending)⟩

/-- **Source is read by its pieces**: what it says is made of the tokens and the end
that it is cut into. -/
theorem read_of_pieces {source : String} {ending : Nat}
    (h : pieces source = .ok (withEnding ending ts)) :
    read source = (treeOf ts ending).map fun tree => ⟨source, tree⟩ := by
  rw [pieces_eq] at h
  cases htokens : tokens source with
  | error e =>
    rw [htokens] at h
    cases h
  | ok ts' =>
    rw [htokens] at h
    obtain ⟨rfl, rfl⟩ := withEnding_inj (Except.ok.inj h)
    rw [read, htokens]
    rfl

/-! ## §2 Characters of tokens -/

/-- A place that a token holds. -/
def Token.Holds (t : Token) (place : Nat) : Prop := t.start ≤ place ∧ place < t.stop

/-- The characters of a source that a token holds. -/
def Token.characters (t : Token) (source : List Char) : List Char := source.extract t.start t.stop

/-- **A lexeme is read from characters**: it takes all of them, and needs no others. -/
def Lexeme.ReadFrom (l : Lexeme) (cs : List Char) : Prop :=
  ∃ afterDot c rest, cs = c :: rest ∧ readLexeme afterDot 0 c rest = .ok (l, rest.length)

/-- What has been taken for a lexeme is what it is read from. -/
theorem readFrom_of_readLexeme (h : readLexeme afterDot position c rest = .ok (l, n)) :
    l.ReadFrom (c :: rest.take n) := by
  have hn := length_readLexeme_le h
  have htaken : (rest.take n).length = n := List.length_take_of_le hn
  have hsplit : readLexeme afterDot position c (rest.take n ++ rest.drop n) = .ok (l, n) := by
    rwa [List.take_append_drop]
  have hown := readLexeme_across hsplit (Nat.le_of_eq htaken.symm) delimited_nil 0
  rw [List.append_nil] at hown
  exact ⟨afterDot, c, rest.take n, rfl, by rw [hown, htaken]⟩

/-- **Tokens cover a source** from a position on: they stand one behind the other, each is read from
its own characters, and what none of them holds is blank. -/
structure CoversFrom (source : List Char) (position : Nat) (ts : List Token) : Prop where
  behind : ∀ t ∈ ts, position ≤ t.start
  nonempty : ∀ t ∈ ts, t.start < t.stop
  inside : ∀ t ∈ ts, t.stop ≤ source.length
  apart : ts.Pairwise (·.stop ≤ ·.start)
  own : ∀ t ∈ ts, t.lexeme.ReadFrom (t.characters source)
  blank : ∀ place c, position ≤ place → source[place]? = some c → (∀ t ∈ ts, ¬ t.Holds place) →
    Text.isBlank c = true

namespace CoversFrom

/-- Behind the end there is nothing to cover. -/
theorem nil (h : source.drop position = []) : CoversFrom source position [] where
  behind := by simp
  nonempty := by simp
  inside := by simp
  apart := .nil
  own := by simp
  blank := by
    intro place c hplace hc _
    have hend : source.length ≤ position := List.drop_eq_nil_iff.mp h
    obtain ⟨hlength, -⟩ := List.getElem?_eq_some_iff.mp hc
    omega

/-- A blank is held by no token. -/
theorem skip (hc : source[position]? = some c) (hblank : Text.isBlank c = true)
    (h : CoversFrom source (position + 1) ts) : CoversFrom source position ts where
  behind t ht := Nat.le_of_succ_le (h.behind t ht)
  nonempty := h.nonempty
  inside := h.inside
  apart := h.apart
  own := h.own
  blank := by
    intro place d hplace hd hnone
    rcases Nat.eq_or_lt_of_le hplace with rfl | hlater
    · obtain rfl : c = d := Option.some.inj (hc.symm.trans hd)
      exact hblank
    · exact h.blank place d hlater hd hnone

/-- **A token takes the characters of its lexeme**, and the others follow behind it. -/
theorem token (hleft : source.drop position = c :: rest)
    (hread : readLexeme afterDot position c rest = .ok (l, n))
    (h : CoversFrom source (position + 1 + n) ts) :
    CoversFrom source position (⟨l, position, position + 1 + n⟩ :: ts) where
  behind := by
    refine List.forall_mem_cons.mpr ⟨Nat.le_refl _, fun t ht => ?_⟩
    have hbehind := h.behind t ht
    omega
  nonempty := by
    have hfirst : position < position + 1 + n := by omega
    exact List.forall_mem_cons.mpr ⟨hfirst, h.nonempty⟩
  inside := by
    have hn := length_readLexeme_le hread
    have hlength : source.length - position = rest.length + 1 := by
      rw [← List.length_drop, hleft, List.length_cons]
    have hfirst : position + 1 + n ≤ source.length := by omega
    exact List.forall_mem_cons.mpr ⟨hfirst, h.inside⟩
  apart := List.pairwise_cons.mpr ⟨h.behind, h.apart⟩
  own := by
    have htaken : position + 1 + n - position = n + 1 := by omega
    have hcharacters : Token.characters ⟨l, position, position + 1 + n⟩ source =
        c :: rest.take n := by
      rw [Token.characters, List.extract_eq_take_drop, hleft, htaken, List.take_succ_cons]
    refine List.forall_mem_cons.mpr ⟨?_, h.own⟩
    rw [hcharacters]
    exact readFrom_of_readLexeme hread
  blank := by
    intro place d hplace hd hnone
    obtain ⟨hfirst, hlater⟩ := List.forall_mem_cons.mp hnone
    -- The place is not held by the first token, so it lies behind it.
    have hbehind : position + 1 + n ≤ place := by
      by_contra hheld
      exact hfirst ⟨hplace, Nat.lt_of_not_le hheld⟩
    exact h.blank place d hbehind hd hlater

/-- Of the tokens that cover a source only one holds a place. -/
theorem eq_of_holds (h : CoversFrom source position ts) {t t' : Token} (ht : t ∈ ts) (ht' : t' ∈ ts)
    (hplace : t.Holds place) (hplace' : t'.Holds place) : t = t' := by
  by_contra hne
  have hdisjoint : ts.Pairwise fun t t' => ¬ (t.Holds place ∧ t'.Holds place) := by
    refine h.apart.imp ?_
    rintro first second hapart ⟨⟨-, hstop⟩, hstart, -⟩
    omega
  have hsymm : Std.Symm fun t t' : Token => ¬ (t.Holds place ∧ t'.Holds place) :=
    ⟨fun _ _ hboth hswapped => hboth hswapped.symm⟩
  exact hdisjoint.forall ht ht' hne ⟨hplace, hplace'⟩

/-- Tokens that stand one behind the other begin one behind the other. -/
theorem increasing (h : CoversFrom source position ts) : ts.Pairwise (·.start < ·.start) :=
  h.apart.imp_of_mem fun ht _ hapart => Nat.lt_of_lt_of_le (h.nonempty _ ht) hapart

end CoversFrom

/-- **The tokens of what is left of a source** cover it. -/
theorem coversFrom_of_tokensFrom (hleft : source.drop position = cs)
    (h : tokensFrom afterDot position cs = .ok ts) :
    CoversFrom source position ts := by
  fun_induction tokensFrom afterDot position cs generalizing ts with
  | case1 =>
    obtain rfl := Except.ok.inj h
    exact .nil hleft
  | case2 afterDot position c rest hblank ih =>
    have hc : source[position]? = some c := by rw [← List.head?_drop, hleft, List.head?_cons]
    have hrest : source.drop (position + 1) = rest := by
      rw [← List.drop_drop, hleft, List.drop_succ_cons, List.drop_zero]
    exact (ih hrest h).skip hc hblank
  | case3 => cases h
  | case4 afterDot position c rest hblank l n hread ih =>
    obtain ⟨ts', hts', h⟩ := bind_ok_iff.mp h
    obtain rfl := Except.ok.inj h
    have hrest : source.drop (position + 1 + n) = rest.drop n := by
      rw [Nat.add_assoc, Nat.add_comm 1, ← List.drop_drop, hleft, List.drop_succ_cons]
    exact (ih hrest hts').token hleft hread

/-! ## §3 Tokens cover the source -/

/-- **The tokens of a source and its end cover it**: if a source can be cut into tokens, then its
pieces are these tokens and behind them one end, which stands where the source ends. The positions
of the tokens increase strictly; each token lies in the source and holds at least one character, and
its lexeme is read from the characters that it holds; no two tokens overlap; and each place in the
source is either held by exactly one token, or it is blank and held by none. -/
theorem tokens_cover {source : String} (h : tokens source = .ok ts) :
    pieces source = .ok (ts.map .token ++ [.ending source.length]) ∧
      ts.Pairwise (·.start < ·.start) ∧
      (∀ t ∈ ts, t.start < t.stop ∧ t.stop ≤ source.length ∧
        t.lexeme.ReadFrom (t.characters source.toList)) ∧
      ts.Pairwise (·.stop ≤ ·.start) ∧
      ∀ place c, source.toList[place]? = some c →
        (∃! t, t ∈ ts ∧ t.Holds place) ∨ (Text.isBlank c = true ∧ ∀ t ∈ ts, ¬ t.Holds place) := by
  have hcovers : CoversFrom source.toList 0 ts :=
    coversFrom_of_tokensFrom (by rw [List.drop_zero]) h
  have hinside : ∀ t ∈ ts, t.stop ≤ source.length :=
    fun t ht => String.length_toList ▸ hcovers.inside t ht
  refine ⟨by rw [pieces_eq, h]; rfl, hcovers.increasing,
    fun t ht => ⟨hcovers.nonempty t ht, hinside t ht, hcovers.own t ht⟩, hcovers.apart,
      fun place c hc => ?_⟩
  by_cases hheld : ∃ t ∈ ts, t.Holds place
  · obtain ⟨t, ht, hplace⟩ := hheld
    exact .inl ⟨t, ⟨ht, hplace⟩, fun t' ht' => hcovers.eq_of_holds ht'.1 ht ht'.2 hplace⟩
  · have hnone : ∀ t ∈ ts, ¬ t.Holds place := fun t ht hplace => hheld ⟨t, ht, hplace⟩
    exact .inr ⟨hcovers.blank place c (Nat.zero_le _) hc hnone, hnone⟩

/-- The tokens of `a + "\\ " `, a text that ends with an escaped backslash and a blank. -/
def escapedTokens : List Token := [⟨.name "a", 0, 1⟩, ⟨.plus, 2, 3⟩, ⟨.text "\\ ", 4, 9⟩]

/-- The blank behind the text is the last character, and the one in the text is held by it. -/
theorem tokens_cover_escaped :
    tokens "a + \"\\\\ \" " = .ok escapedTokens ∧
      pieces "a + \"\\\\ \" " = .ok (escapedTokens.map .token ++ [.ending 10]) ∧
      ∃! t, t ∈ escapedTokens ∧ t.Holds 7 := by
  have htokens : tokens "a + \"\\\\ \" " = .ok escapedTokens := by cbv
  obtain ⟨hpieces, -, -, -, hplaces⟩ := tokens_cover htokens
  refine ⟨htokens, hpieces, (hplaces 7 ' ' (by decide)).resolve_right fun hnone => ?_⟩
  exact hnone.2 ⟨.text "\\ ", 4, 9⟩ (by simp [escapedTokens]) ⟨by decide, by decide⟩

end Switchyard.Expression
