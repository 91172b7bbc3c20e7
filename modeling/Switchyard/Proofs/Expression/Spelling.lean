import Switchyard.Proofs.Expression.Lexing
import Switchyard.Proofs.Expression.Parsing

/-!
# Spelling expressions

A tree is spelled in one canonical way: texts between double quotes, with a backslash before
each backslash and double quote in them; integers by their decimal digits; paths with dots
between their segments; and sums with the right operand in parentheses if it is a sum itself.
Parsing undoes spelling.

Main statement: `parse_spelling`.
-/

namespace Switchyard.Expression

open Grammar

/-! ## §1 Spelling -/

/-- The spelling of a text. -/
def textSpelling (s : String) : String :=
  String.ofList ('"' :: (s.toList.flatMap escapedChar ++ ['"']))

/-- The spelling of a literal. Other data than texts, integers, truth values and null has none. -/
def literalSpelling : Value → String
  | .text s => textSpelling s
  | .int n => toString n
  | .bool true => "true"
  | .bool false => "false"
  | .null => "null"
  | _ => ""

/-- Whether a tree is put in parentheses on the right of a sum. -/
def Tree.isSum : Tree → Bool
  | .binary .. => true
  | _ => false

/-- **The canonical spelling** of a tree. -/
def Tree.spelling : Tree → String
  | .literal value => literalSpelling value
  | .path segments => dotted segments
  | .binary operator left right =>
    left.spelling ++ " " ++ operator ++ " " ++
      (if right.isSum then "(" ++ right.spelling ++ ")" else right.spelling)
  | .alien _ => ""

/-- A name: a basic letter or underscore, then basic letters, basic digits,
underscores and hyphens. -/
def IsName (s : String) : Prop :=
  ∃ c tail, s = String.ofList (c :: tail) ∧ startsName c = true ∧ ∀ d ∈ tail, continuesName d = true

theorem isName_of_all {s : String} {c : Char} {tail : List Char}
    (hs : s = String.ofList (c :: tail)) (hc : startsName c = true)
    (htail : tail.all continuesName = true) : IsName s :=
  ⟨c, tail, hs, hc, List.all_eq_true.mp htail⟩

/-- Segments that can be spelled: names, and places counted from the front. -/
inductive Segment.Spellable : Segment → Prop
  | name {s : String} : IsName s → Spellable (.name s)
  | index (n : Nat) : Spellable (.index n)

/-- **Trees that can be spelled**: texts, natural numbers, truth values and null, paths that begin
with a name that is no keyword, and sums of such trees. -/
inductive Tree.Spellable : Tree → Prop
  | text (s : String) : Spellable (.literal (.text s))
  | integer (n : Nat) : Spellable (.literal (.int n))
  | truth (b : Bool) : Spellable (.literal (.bool b))
  | null : Spellable (.literal .null)
  | path {root : String} {segments : List Segment} : IsName root → keyword? root = none →
      (∀ segment ∈ segments, segment.Spellable) → Spellable (.path (.name root :: segments))
  | sum {left right : Tree} : Spellable left → Spellable right → Spellable (.binary "+" left right)

/-! ## §2 Spelled lexemes -/

/-- What can follow an operand: a blank before a plus, or a closing parenthesis. -/
def EndsOperand (rest : List Char) : Prop := ∀ c, rest.head? = some c → c = ' ' ∨ c = ')'

/-- What can follow a part of a path: a dot, or what can follow an operand. -/
def EndsPart (rest : List Char) : Prop := ∀ c, rest.head? = some c → c = '.' ∨ c = ' ' ∨ c = ')'

/-- **Characters spell lexemes**: they are read before anything that can follow an operand. -/
def Spells (cs : List Char) (ls : List Lexeme) : Prop :=
  ∀ rest more, EndsOperand rest → Yields false rest more → Yields false (cs ++ rest) (ls ++ more)

variable {cs cs' rest : List Char} {ls ls' more : List Lexeme}

theorem EndsOperand.part (h : EndsOperand rest) : EndsPart rest := fun c hc => .inr (h c hc)

theorem EndsPart.stopsAt {p : Char → Bool} (h : EndsPart rest) (hdot : p '.' = false)
    (hblank : p ' ' = false) (hclosing : p ')' = false) : StopsAt p rest := by
  intro c hc
  rcases h c hc with rfl | rfl | rfl <;> assumption

theorem EndsOperand.stopsAt {p : Char → Bool} (h : EndsOperand rest) (hblank : p ' ' = false)
    (hclosing : p ')' = false) : StopsAt p rest := by
  intro c hc
  rcases h c hc with rfl | rfl <;> assumption

theorem yields_closing {afterDot : Bool} (h : Yields false rest more) :
    Yields afterDot (')' :: rest) (.closing :: more) := .sign rfl (fun _ => rfl) h

/-- A name is read before what can follow a part of a path. -/
theorem yields_name {afterDot : Bool} {s : String} (hs : IsName s) (hrest : EndsPart rest)
    (h : Yields false rest more) : Yields afterDot (s.toList ++ rest) (.name s :: more) := by
  obtain ⟨c, tail, rfl, hc, htail⟩ := hs
  rw [String.toList_ofList, List.cons_append]
  exact .lexeme (isBlank_eq_false_of_startsName hc)
    (fun _ => readLexeme_name hc htail (hrest.stopsAt rfl rfl rfl)) h

/-- The digits of a number begin with a digit. -/
theorem exists_digits (n : Nat) : ∃ c tail, Nat.toDigits 10 n = c :: tail ∧
    (∀ d ∈ c :: tail, Text.isBasicDigit d = true) ∧ Text.isBlank c = false := by
  obtain ⟨c, tail, hdigits⟩ := List.exists_cons_of_ne_nil (Nat.toDigits_ne_nil (n := n) (b := 10))
  have hbasic : ∀ d ∈ c :: tail, Text.isBasicDigit d = true := fun d hd =>
    Text.isBasicDigit_of_mem_toDigits (hdigits ▸ hd)
  refine ⟨c, tail, hdigits, hbasic, Text.isBlank_eq_false_of_isDigitSign ?_⟩
  exact Text.isDigitSign_of_isDecimalDigit
    (Text.isDecimalDigit_of_isBasicDigit (hbasic c (List.mem_cons_self ..)))

/-- The place of an item is read after a dot. -/
theorem yields_index (n : Nat) (hrest : EndsPart rest) (h : Yields false rest more) :
    Yields true (Nat.toDigits 10 n ++ rest) (.index n :: more) := by
  obtain ⟨c, tail, hdigits, hbasic, hblank⟩ := exists_digits n
  have hvalue : Text.decimalValue (c :: tail) = n := hdigits ▸ Text.decimalValue_toDigits n
  rw [hdigits, List.cons_append, ← hvalue]
  exact .lexeme hblank (fun _ => readLexeme_index hbasic (hrest.stopsAt rfl rfl rfl)) h

theorem spells_integer (n : Nat) : Spells (Nat.toDigits 10 n) [.integer n] := by
  intro rest more hrest h
  obtain ⟨c, tail, hdigits, hbasic, hblank⟩ := exists_digits n
  have hvalue : Text.decimalValue (c :: tail) = n := hdigits ▸ Text.decimalValue_toDigits n
  rw [hdigits, List.cons_append, ← hvalue]
  exact .lexeme hblank (fun _ => readLexeme_integer hbasic (hrest.stopsAt rfl rfl)) h

theorem spells_text (s : String) : Spells (textSpelling s).toList [.text s] := by
  intro rest more hrest h
  have hread : ∀ position, readLexeme false position '"'
      ((s.toList.flatMap escapedChar ++ ['"']) ++ rest) =
      .ok (.text s, (s.toList.flatMap escapedChar ++ ['"']).length) := by
    intro position
    simpa using @readLexeme_text false position s.toList rest
  rw [textSpelling, String.toList_ofList, List.cons_append]
  exact .lexeme rfl hread h

theorem spells_name {s : String} (hs : IsName s) : Spells s.toList [.name s] :=
  fun _ _ hrest h => yields_name hs hrest.part h

/-! ## §3 Spelled operands and sums -/

/-- The fields of a path are read, each after its dot. -/
theorem yields_fields (fields : List Field) (hfields : ∀ field ∈ fields, field.segment.Spellable)
    (hrest : EndsPart rest) (h : Yields false rest more) :
    Yields false ((fields.flatMap fun field => '.' :: field.segment.key.toList) ++ rest)
      ((fields.flatMap fun field => [.dot, field.lexeme]) ++ more) := by
  induction fields with
  | nil => exact h
  | cons field fields ih =>
    have hothers := ih fun field hfield => hfields field (List.mem_cons_of_mem _ hfield)
    -- The field ends where the next dot stands, or with the path.
    have hends : EndsPart ((fields.flatMap fun field => '.' :: field.segment.key.toList) ++
        rest) := by
      cases fields with
      | nil => exact hrest
      | cons _ _ => exact fun c hc => .inl (Option.some.inj hc).symm
    have hfield := hfields field (List.mem_cons_self ..)
    simp only [List.flatMap_cons, List.cons_append, List.append_assoc]
    refine .sign rfl (fun _ => rfl) ?_
    cases field with
    | name s =>
      cases hfield with
      | name hs => exact yields_name hs hends hothers
    | index n =>
      have hkey : (Segment.index n).key.toList = Nat.toDigits 10 n := Nat.toList_repr
      rw [Field.segment, hkey]
      exact yields_index n hends hothers

/-- The characters of a path. -/
theorem toList_dotted (segment : Segment) (segments : List Segment) :
    (dotted (segment :: segments)).toList = segment.key.toList ++ segments.flatMap fun s =>
      '.' :: s.key.toList := by
  induction segments generalizing segment with
  | nil => simp [dotted]
  | cons next segments ih =>
    have hsplit : dotted (segment :: next :: segments) =
        segment.key ++ "." ++ dotted (next :: segments) :=
      String.intercalate_cons_cons
    simp [hsplit, ih]

/-- Segments that can be spelled are fields. -/
theorem exists_fields {segments : List Segment} (h : ∀ segment ∈ segments, segment.Spellable) :
    ∃ fields : List Field, fields.map Field.segment = segments := by
  induction segments with
  | nil => exact ⟨[], rfl⟩
  | cons segment segments ih =>
    obtain ⟨fields, rfl⟩ := ih fun s hs => h s (List.mem_cons_of_mem _ hs)
    cases h segment (List.mem_cons_self ..) with
    | @name s _ => exact ⟨.name s :: fields, rfl⟩
    | index n => exact ⟨.index n :: fields, rfl⟩

/-- A path spells the lexemes of its derivation. -/
theorem spells_path {root : String} {fields : List Field} (hroot : IsName root)
    (hfields : ∀ field ∈ fields, field.segment.Spellable) (hkeyword : keyword? root = none) :
    Spells (dotted (.name root :: fields.map Field.segment)).toList
      (Term.path root hkeyword fields).lexemes := by
  intro rest more hrest h
  have hends : EndsPart ((fields.flatMap fun field => '.' :: field.segment.key.toList) ++
      rest) := by
    cases fields with
    | nil => exact hrest.part
    | cons _ _ => exact fun c hc => .inl (Option.some.inj hc).symm
  rw [toList_dotted, List.flatMap_map, List.append_assoc]
  exact yields_name hroot hends (yields_fields fields hfields hrest.part h)

/-- Parentheses around what is spelled. -/
theorem Spells.group (h : Spells cs ls) :
    Spells ('(' :: (cs ++ [')'])) (.opening :: (ls ++ [.closing])) := by
  intro rest more _ hmore
  have hinner := h (')' :: rest) (.closing :: more)
      (fun c hc => .inr (Option.some.inj hc).symm) (yields_closing hmore)
  simp only [List.cons_append, List.append_assoc, List.nil_append]
  exact .sign rfl (fun _ => rfl) hinner

/-- A plus between what is spelled. -/
theorem Spells.add (h : Spells cs ls) (h' : Spells cs' ls') :
    Spells (cs ++ ' ' :: '+' :: ' ' :: cs') (ls ++ .plus :: ls') := by
  intro rest more hrest hmore
  have hright : Yields false ('+' :: ' ' :: (cs' ++ rest)) (.plus :: (ls' ++ more)) :=
    .sign rfl (fun _ => rfl) (.blank rfl (h' rest more hrest hmore))
  simp only [List.append_assoc, List.cons_append]
  exact h _ _ (fun c hc => .inl (Option.some.inj hc).symm) (.blank rfl hright)

/-- **An operand** that can be spelled has a derivation whose lexemes it spells. -/
theorem exists_term {tree : Tree} (h : tree.Spellable) (hsum : tree.isSum = false) :
    ∃ t : Term, t.tree = tree ∧ Spells tree.spelling.toList t.lexemes := by
  cases h with
  | text s => exact ⟨.literal (.text s), rfl, spells_text s⟩
  | integer n =>
    have hdigits : (Tree.literal (.int n)).spelling.toList = Nat.toDigits 10 n := Nat.toList_repr
    exact ⟨.literal (.integer n), rfl, hdigits ▸ spells_integer n⟩
  | truth b =>
    cases b with
    | true =>
      exact ⟨.literal (.truth true), rfl,
        spells_name (@isName_of_all _ 't' ['r', 'u', 'e'] rfl rfl rfl)⟩
    | false =>
      exact ⟨.literal (.truth false), rfl,
        spells_name (@isName_of_all _ 'f' ['a', 'l', 's', 'e'] rfl rfl rfl)⟩
  | null =>
    exact ⟨.literal .null, rfl, spells_name (@isName_of_all _ 'n' ['u', 'l', 'l'] rfl rfl rfl)⟩
  | @path root segments hroot hkeyword hsegments =>
    obtain ⟨fields, rfl⟩ := exists_fields hsegments
    exact ⟨.path root hkeyword fields, rfl, spells_path hroot (by simpa using hsegments) hkeyword⟩
  | sum _ _ => cases hsum

/-- **A tree that can be spelled** has a derivation whose lexemes it spells. -/
theorem exists_derivation {tree : Tree} (h : tree.Spellable) :
    ∃ d : Sum, d.tree = tree ∧ Spells tree.spelling.toList d.lexemes := by
  have hoperand : ∀ {tree : Tree}, tree.Spellable → tree.isSum = false →
      ∃ d : Sum, d.tree = tree ∧ Spells tree.spelling.toList d.lexemes := by
    intro tree h hsum
    obtain ⟨t, rfl, hspells⟩ := exists_term h hsum
    exact ⟨.mk t [], by simp [Sum.tree, treeOfAdded], by
      simpa [Sum.lexemes, lexemesOfAdded] using hspells⟩
  induction h with
  | @sum left right hleft hright ihLeft ihRight =>
    obtain ⟨d, rfl, hd⟩ := ihLeft
    -- On the right a sum stands in parentheses, and anything else as it is.
    obtain ⟨t, ht, hspells⟩ : ∃ t : Term, t.tree = right ∧
        Spells (if right.isSum then "(" ++ right.spelling ++ ")"
          else right.spelling).toList t.lexemes := by
      cases hsum : right.isSum with
      | true =>
        obtain ⟨d', rfl, hd'⟩ := ihRight
        exact ⟨.group d', rfl, by simpa [Term.lexemes] using hd'.group⟩
      | false => exact exists_term hright hsum
    refine ⟨d.add t, by simp [ht], ?_⟩
    simpa [Tree.spelling] using hd.add hspells
  | text s => exact hoperand (.text s) rfl
  | integer n => exact hoperand (.integer n) rfl
  | truth b => exact hoperand (.truth b) rfl
  | null => exact hoperand .null rfl
  | path hroot hkeyword hsegments => exact hoperand (.path hroot hkeyword hsegments) rfl

/-! ## §4 Parsing undoes spelling -/

/-- **Parsing undoes spelling**: the spelling of a tree is parsed to that tree. -/
theorem parse_spelling {tree : Tree} (h : tree.Spellable) :
    parse tree.spelling = .ok ⟨tree.spelling, tree⟩ := by
  obtain ⟨d, rfl, hspells⟩ := exists_derivation h
  -- The spelling is cut into the lexemes of the derivation, and these are read to its tree.
  have hyields := hspells [] [] (fun c hc => by cases hc) .nil
  rw [List.append_nil, List.append_nil] at hyields
  obtain ⟨ts, hts, hlexemes⟩ := hyields 0
  rw [parse_of_tokens hts, treeOf_of_derives hlexemes]

/-- A text with a quote in it, and a sum of a path and a number on its right. -/
def quotedSum : Tree :=
  .binary "+" (.literal (.text "a\"b"))
    (.binary "+" (.path [.name "x-1", .index 0, .name "true"]) (.literal (.int 12)))

theorem parse_spelling_quotedSum : quotedSum.Spellable ∧
    parse "\"a\\\"b\" + (x-1.0.true + 12)" = .ok ⟨"\"a\\\"b\" + (x-1.0.true + 12)", quotedSum⟩ := by
  have hroot : IsName "x-1" := @isName_of_all _ 'x' ['-', '1'] rfl rfl rfl
  have hfields : ∀ segment ∈ [Segment.index 0, .name "true"], segment.Spellable := by
    intro segment hsegment
    simp only [List.mem_cons, List.not_mem_nil, or_false] at hsegment
    rcases hsegment with rfl | rfl
    · exact .index 0
    · exact .name (@isName_of_all _ 't' ['r', 'u', 'e'] rfl rfl rfl)
  have hspellable : quotedSum.Spellable :=
    .sum (.text _) (.sum (.path hroot rfl hfields) (.integer 12))
  have hspelling : quotedSum.spelling = "\"a\\\"b\" + (x-1.0.true + 12)" := by decide
  exact ⟨hspellable, hspelling ▸ parse_spelling hspellable⟩

end Switchyard.Expression
