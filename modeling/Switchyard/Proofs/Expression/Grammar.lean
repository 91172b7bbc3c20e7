import Switchyard.Expression.Parser

/-!
# The grammar of expressions

    expression := term ('+' term)*
    term       := literal | path | '(' expression ')'
    path       := NAME ('.' (NAME | INDEX))*
    literal    := TEXT | NUMBER | 'true' | 'false' | 'null'

The grammar is told by its *derivations*: each of them has the lexemes that it derives and the
tree that it stands for.

Main statement: the grammar is unambiguous (`Sum.lexemes_injective`).
-/

namespace Switchyard.Expression

namespace Grammar

/-! ## §1 Derivations -/

/-- Derivations of a literal. -/
inductive Literal
  | text (s : String)
  | integer (n : Nat)
  | decimal (x : Float)
  | truth (b : Bool)
  | null

/-- Derivations of what follows a dot in a path. -/
inductive Field
  | name (s : String)
  | index (n : Nat)

mutual

/-- **Derivations of a term**. The first name of a path is no keyword. -/
inductive Term
  | literal (l : Literal)
  | path (root : String) (noKeyword : keyword? root = none) (fields : List Field)
  | group (e : Sum)

/-- **Derivations of an expression**: a term, and those that are added to it from left to right. -/
inductive Sum
  | mk (first : Term) (others : List Term)

end

/-- The lexeme of a literal. -/
def Literal.lexeme : Literal → Lexeme
  | .text s => .text s
  | .integer n => .integer n
  | .decimal x => .decimal x
  | .truth true => .name "true"
  | .truth false => .name "false"
  | .null => .name "null"

/-- The value of a literal. -/
def Literal.value : Literal → Value
  | .text s => .text s
  | .integer n => .int n
  | .decimal x => .atom (.float x)
  | .truth b => .bool b
  | .null => .null

/-- The lexeme of a field: a name, or the place of an item. -/
def Field.lexeme : Field → Lexeme
  | .name s => .name s
  | .index n => .index n

/-- The segment of a field: a name as a text, the place of an item as an integer. -/
def Field.segment : Field → Segment
  | .name s => .name s
  | .index n => .index n

mutual

/-- The lexemes that a term derives. -/
def Term.lexemes : Term → List Lexeme
  | .literal l => [l.lexeme]
  | .path root _ fields => .name root :: fields.flatMap fun field => [.dot, field.lexeme]
  | .group e => .opening :: (e.lexemes ++ [.closing])

/-- The lexemes that an expression derives. -/
def Sum.lexemes : Sum → List Lexeme
  | .mk first others => first.lexemes ++ lexemesOfAdded others

/-- The lexemes of terms that are added. -/
def lexemesOfAdded : List Term → List Lexeme
  | [] => []
  | t :: rest => .plus :: (t.lexemes ++ lexemesOfAdded rest)

end

mutual

/-- The tree of a term. Parentheses leave nothing in it. -/
def Term.tree : Term → Tree
  | .literal l => .literal l.value
  | .path root _ fields => .path (.name root :: fields.map Field.segment)
  | .group e => e.tree

/-- The tree of an expression. -/
def Sum.tree : Sum → Tree
  | .mk first others => treeOfAdded first.tree others

/-- The tree to the left with terms added to it: sums associate to the left. -/
def treeOfAdded (left : Tree) : List Term → Tree
  | [] => left
  | t :: rest => treeOfAdded (.binary "+" left t.tree) rest

end

/-- An expression with one more term added. -/
def Sum.add : Sum → Term → Sum
  | .mk first others, t => .mk first (others ++ [t])

theorem lexemesOfAdded_append (others more : List Term) :
    lexemesOfAdded (others ++ more) = lexemesOfAdded others ++ lexemesOfAdded more := by
  induction others with
  | nil => simp [lexemesOfAdded]
  | cons t others ih => simp [lexemesOfAdded, ih]

theorem treeOfAdded_append (left : Tree) (others more : List Term) :
    treeOfAdded left (others ++ more) = treeOfAdded (treeOfAdded left others) more := by
  induction others generalizing left with
  | nil => simp [treeOfAdded]
  | cons t others ih => simp [treeOfAdded, ih]

@[simp] theorem Sum.lexemes_add (e : Sum) (t : Term) :
    (e.add t).lexemes = e.lexemes ++ .plus :: t.lexemes := by
  obtain ⟨first, others⟩ := e
  simp [Sum.add, Sum.lexemes, lexemesOfAdded_append, lexemesOfAdded]

@[simp] theorem Sum.tree_add (e : Sum) (t : Term) : (e.add t).tree = .binary "+" e.tree t.tree := by
  obtain ⟨first, others⟩ := e
  simp [Sum.add, Sum.tree, treeOfAdded_append, treeOfAdded]

/-! ## §2 Unambiguity -/

/-- What can stand after a term: a dot would go on with its path. -/
def EndsTerm (rest : List Lexeme) : Prop := rest.head? ≠ some .dot

/-- What can stand after an expression: a dot or a plus would go on with it. -/
def EndsSum (rest : List Lexeme) : Prop := rest.head? ≠ some .dot ∧ rest.head? ≠ some .plus

theorem endsTerm_added (others : List Term) {rest : List Lexeme} (h : EndsSum rest) :
    EndsTerm (lexemesOfAdded others ++ rest) := by
  cases others with
  | nil => exact h.1
  | cons t others => simp [EndsTerm, lexemesOfAdded]

theorem endsSum_closing (rest : List Lexeme) : EndsSum (.closing :: rest) := by
  simp [EndsSum]

/-- A literal can be told from its lexeme. -/
theorem Literal.lexeme_injective {l l' : Literal} (h : l.lexeme = l'.lexeme) : l = l' := by
  rcases l with s | n | x | (_ | _) | _ <;> rcases l' with s' | n' | x' | (_ | _) | _ <;>
      simp_all [Literal.lexeme]

/-- The lexeme of a literal is no name that begins a path. -/
theorem Literal.lexeme_ne_root (l : Literal) {root : String} (h : keyword? root = none) :
    l.lexeme ≠ .name root := by
  rintro hname
  rcases l with s | n | x | (_ | _) | _ <;> cases hname <;> cases h

theorem Literal.lexeme_ne_opening (l : Literal) : l.lexeme ≠ .opening := by
  rcases l with s | n | x | (_ | _) | _ <;> simp [Literal.lexeme]

theorem Field.lexeme_injective {field field' : Field} (h : field.lexeme = field'.lexeme) :
    field = field' := by
  cases field <;> cases field' <;> simp_all [Field.lexeme]

/-- The fields of a path can be told from what begins with them. -/
theorem fields_cancel {fields fields' : List Field} {rest rest' : List Lexeme}
    (h : (fields.flatMap fun field => [.dot, field.lexeme]) ++ rest =
      (fields'.flatMap fun field => [.dot, field.lexeme]) ++ rest')
    (hrest : EndsTerm rest) (hrest' : EndsTerm rest') : fields = fields' ∧ rest = rest' := by
  induction fields generalizing fields' with
  | nil =>
    cases fields' with
    | nil => exact ⟨rfl, h⟩
    | cons field' fields' =>
      -- The path on the right goes on where the one on the left has ended.
      obtain rfl : rest = _ := h
      exact absurd rfl hrest
  | cons field fields ih =>
    cases fields' with
    | nil =>
      obtain rfl : _ = rest' := h
      exact absurd rfl hrest'
    | cons field' fields' =>
      simp only [List.flatMap_cons, List.cons_append, List.nil_append, List.cons.injEq, true_and]
        at h
      obtain ⟨hfields, hrests⟩ := ih h.2
      exact ⟨by rw [Field.lexeme_injective h.1, hfields], hrests⟩

mutual

/-- A term can be told from what begins with it. -/
theorem Term.cancel :
    ∀ (t t' : Term) {rest rest' : List Lexeme}, t.lexemes ++ rest = t'.lexemes ++ rest' →
    EndsTerm rest → EndsTerm rest' → t = t' ∧ rest = rest'
  | .literal l, .literal l', rest, rest', h, _, _ => by
    simp only [Term.lexemes, List.cons_append, List.nil_append, List.cons.injEq] at h
    exact ⟨by rw [Literal.lexeme_injective h.1], h.2⟩
  | .path root _ fields, .path root' _ fields', rest, rest', h, hrest, hrest' => by
    simp only [Term.lexemes, List.cons_append, List.cons.injEq, Lexeme.name.injEq] at h
    obtain ⟨rfl, h⟩ := h
    obtain ⟨rfl, hrests⟩ := fields_cancel h hrest hrest'
    exact ⟨rfl, hrests⟩
  | .group e, .group e', rest, rest', h, _, _ => by
    simp only [Term.lexemes, List.cons_append, List.append_assoc, List.cons.injEq, true_and] at h
    -- What is in the parentheses is followed by the closing one.
    obtain ⟨rfl, hrests⟩ := Sum.cancel e e' h (endsSum_closing rest) (endsSum_closing rest')
    exact ⟨rfl, (List.cons.inj hrests).2⟩
  | .literal l, .path root hroot _, _, _, h, _, _ => by
    simp only [Term.lexemes, List.cons_append, List.cons.injEq] at h
    exact absurd h.1 (l.lexeme_ne_root hroot)
  | .path root hroot _, .literal l, _, _, h, _, _ => by
    simp only [Term.lexemes, List.cons_append, List.cons.injEq] at h
    exact absurd h.1.symm (l.lexeme_ne_root hroot)
  | .literal l, .group _, _, _, h, _, _ => by
    simp only [Term.lexemes, List.cons_append, List.cons.injEq] at h
    exact absurd h.1 l.lexeme_ne_opening
  | .group _, .literal l, _, _, h, _, _ => by
    simp only [Term.lexemes, List.cons_append, List.cons.injEq] at h
    exact absurd h.1.symm l.lexeme_ne_opening
  | .path _ _ _, .group _, _, _, h, _, _ => by simp [Term.lexemes] at h
  | .group _, .path _ _ _, _, _, h, _, _ => by simp [Term.lexemes] at h

/-- An expression can be told from what begins with it. -/
theorem Sum.cancel :
    ∀ (e e' : Sum) {rest rest' : List Lexeme}, e.lexemes ++ rest = e'.lexemes ++ rest' →
    EndsSum rest → EndsSum rest' → e = e' ∧ rest = rest'
  | .mk first others, .mk first' others', rest, rest', h, hrest, hrest' => by
    simp only [Sum.lexemes, List.append_assoc] at h
    obtain ⟨rfl, hothers⟩ :=
      Term.cancel first first' h (endsTerm_added others hrest) (endsTerm_added others' hrest')
    obtain ⟨rfl, hrests⟩ := added_cancel others others' hothers hrest hrest'
    exact ⟨rfl, hrests⟩

theorem added_cancel : ∀ (others others' : List Term) {rest rest' : List Lexeme},
    lexemesOfAdded others ++ rest = lexemesOfAdded others' ++ rest' →
    EndsSum rest → EndsSum rest' → others = others' ∧ rest = rest'
  | [], [], _, _, h, _, _ => ⟨rfl, by simpa [lexemesOfAdded] using h⟩
  -- The sum on the one side goes on where that on the other side has ended.
  | [], t :: others, rest, _, h, hrest, _ => by
    obtain rfl : rest = _ := h
    exact absurd rfl hrest.2
  | t :: others, [], _, rest', h, _, hrest' => by
    obtain rfl : _ = rest' := h
    exact absurd rfl hrest'.2
  | t :: others, t' :: others', rest, rest', h, hrest, hrest' => by
    simp only [lexemesOfAdded, List.cons_append, List.append_assoc, List.cons.injEq, true_and] at h
    obtain ⟨rfl, hothers⟩ :=
      Term.cancel t t' h (endsTerm_added others hrest) (endsTerm_added others' hrest')
    obtain ⟨rfl, hrests⟩ := added_cancel others others' hothers hrest hrest'
    exact ⟨rfl, hrests⟩

end

/-- **The grammar is unambiguous**: no two derivations derive the same lexemes. -/
theorem Sum.lexemes_injective {e e' : Sum} (h : e.lexemes = e'.lexemes) : e = e' := by
  have hnothing : e.lexemes ++ [] = e'.lexemes ++ [] := by rw [h]
  exact (Sum.cancel e e' hnothing (by simp [EndsSum]) (by simp [EndsSum])).1

end Grammar
end Switchyard.Expression
