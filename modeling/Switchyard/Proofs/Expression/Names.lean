import Switchyard.Proofs.Expression.Spelling
import Mathlib.Data.List.TakeWhile

/-!
# What parsed trees are made of

Every name in an expression that was parsed was cut out of its source as a token, so it has the
characters of a name; a path begins with such a name that is no keyword. Hence a tree that was
parsed is made of literals, of paths of that kind, and of sums. Conversely a name alone is read as a
path, or as the literal that it stands for.

Main statements: `parsed_of_parse`, `parse_name` and `parse_keyword`.
-/

namespace Switchyard.Expression

open Grammar

variable {afterDot : Bool} {position : Nat} {c : Char} {cs rest : List Char}
  {ts : List Token} {s : String}

/-! ## §1 Names in tokens -/

/-- A numeral is no name. -/
theorem Numeral.lexeme_ne_name (n : Numeral) : n.lexeme ≠ .name s := by
  unfold lexeme
  split <;> simp

/-- A lexeme that is a name has the characters of a name. -/
theorem isName_of_readLexeme {n : Nat}
    (h : readLexeme afterDot position c rest = .ok (.name s, n)) : IsName s := by
  unfold readLexeme at h
  split_ifs at h with hquote hdigit hdecimal hdot hletter hstarts
  · -- What stands between quotes is a text.
    obtain ⟨read, -, h⟩ := bind_ok_iff.mp h
    cases h
  · cases h
  · exact absurd (Prod.mk.inj (Except.ok.inj h)).1 (Numeral.lexeme_ne_name _)
  · obtain ⟨hname, -⟩ := Prod.mk.inj (Except.ok.inj h)
    obtain rfl := Lexeme.name.inj hname
    exact ⟨c, rest.takeWhile continuesName,
      rfl, by simpa using hstarts, fun d hd => List.mem_takeWhile_imp hd⟩
  all_goals cases h

/-- **Names in tokens** have the characters of names. -/
theorem isName_of_tokensFrom (h : tokensFrom afterDot position cs = .ok ts) :
    ∀ t ∈ ts, ∀ s, t.lexeme = .name s → IsName s := by
  fun_induction tokensFrom afterDot position cs generalizing ts with
  | case1 =>
    obtain rfl := Except.ok.inj h
    simp
  | case2 _ _ _ _ _ ih => exact ih h
  | case3 => cases h
  | case4 afterDot position c rest _ lexeme n hread ih =>
    obtain ⟨others, hothers, h⟩ := bind_ok_iff.mp h
    obtain rfl := Except.ok.inj h
    intro t ht s hs
    rcases List.mem_cons.mp ht with rfl | hmem
    · obtain rfl : lexeme = .name s := hs
      exact isName_of_readLexeme hread
    · exact ih hothers t hmem s hs

/-! ## §2 Trees -/

/-- **A parsed tree**: a literal, a path that begins with a name that is no keyword, or
a sum of such trees. -/
inductive Tree.Parsed : Tree → Prop
  | literal (l : Literal) : Parsed (.literal l.value)
  | path {root : String} {segments : List Segment} : IsName root → keyword? root = none →
      (∀ segment ∈ segments, segment.Spellable) → Parsed (.path (.name root :: segments))
  | sum {left right : Tree} : Parsed left → Parsed right → Parsed (.binary "+" left right)

/-- Fields whose names are names can be spelled. -/
theorem spellable_of_fields {fields : List Field}
    (h : ∀ s, .name s ∈ fields.flatMap (fun field => [Lexeme.dot, field.lexeme]) → IsName s) :
    ∀ field ∈ fields, field.segment.Spellable := by
  intro field hfield
  cases field with
  | name s =>
    apply Segment.Spellable.name
    apply h
    exact List.mem_flatMap.mpr ⟨.name s, hfield, by simp [Field.lexeme]⟩
  | index n => exact .index n

mutual

/-- The tree of a term is a parsed one if its names are names. -/
theorem parsed_term : ∀ t : Term, (∀ s, .name s ∈ t.lexemes → IsName s) → t.tree.Parsed
  | .literal l, _ => .literal l
  | .path root hroot fields, h => by
    refine .path (h root (List.mem_cons_self ..)) hroot
      (List.forall_mem_map.mpr (spellable_of_fields ?_))
    exact fun s hs => h s (List.mem_cons_of_mem _ hs)
  | .group e, h => parsed_sum e fun s hs => h s (List.mem_cons_of_mem _ (List.mem_append_left _ hs))

/-- The tree of an expression is a parsed one if its names are names. -/
theorem parsed_sum : ∀ e : Sum, (∀ s, .name s ∈ e.lexemes → IsName s) → e.tree.Parsed
  | .mk first others, h =>
    parsed_added others (fun s hs => h s (List.mem_append_right _ hs))
      (parsed_term first fun s hs => h s (List.mem_append_left _ hs))

theorem parsed_added : ∀ (others : List Term), (∀ s, .name s ∈ lexemesOfAdded others → IsName s) →
    ∀ {left : Tree}, left.Parsed → (treeOfAdded left others).Parsed
  | [], _, _, hleft => hleft
  | t :: rest, h, _, hleft =>
    parsed_added rest (fun s hs => h s (List.mem_cons_of_mem _ (List.mem_append_right _ hs)))
      (.sum hleft (parsed_term t fun s hs =>
        h s (List.mem_cons_of_mem _ (List.mem_append_left _ hs))))

end

/-- **What was parsed** is a parsed tree. -/
theorem parsed_of_parse {source : String} {e : Expression} (h : parse source = .ok e) :
    e.root.Parsed := by
  unfold parse at h
  split at h
  · rename_i e' hread
    obtain rfl := Except.ok.inj h
    obtain ⟨ts, htokens, hread⟩ := bind_ok_iff.mp hread
    obtain ⟨tree, htree, hread⟩ := bind_ok_iff.mp hread
    obtain rfl := Except.ok.inj hread
    obtain ⟨d, hlexemes, rfl⟩ := derives_of_treeOf htree
    -- The names of the derivation are those of the tokens.
    refine parsed_sum d fun s hs => ?_
    rw [hlexemes] at hs
    obtain ⟨t, ht, hname⟩ := List.mem_map.mp hs
    exact isName_of_tokensFrom htokens t ht s hname
  · cases h

/-! ## §3 Names as sources -/

/-- **A name that is no keyword** is read as a path. -/
theorem parse_name (hname : IsName s) (hkeyword : keyword? s = none) :
    parse s = .ok ⟨s, .path [.name s]⟩ := by
  have hspelling : (Tree.path [.name s]).spelling = s := by
    simp [Tree.spelling, dotted, Segment.key]
  have hparse : parse (Tree.path [.name s]).spelling = _ :=
    parse_spelling (.path hname hkeyword (by simp))
  rwa [hspelling] at hparse

/-- **A keyword** is read as the literal that it stands for. -/
theorem parse_keyword {literal : Scalar} (h : keyword? s = some literal) :
    parse s = .ok ⟨s, .literal (.atom literal)⟩ := by
  unfold keyword? at h
  split at h
  · obtain rfl := Option.some.inj h
    exact parse_spelling (.truth true)
  · obtain rfl := Option.some.inj h
    exact parse_spelling (.truth false)
  · obtain rfl := Option.some.inj h
    exact parse_spelling .null
  · cases h

end Switchyard.Expression
