import Mathlib.Data.List.Induction
import Switchyard.Value.Basic

/-!
# Looking fields up

The key of a field is a text, and no other key is the same key as a text. So the value of a field is
the first one that entries have under its name; and where entries are built by putting pairs one
after another, it is the last one of the pairs.

Main statements: `field?_drop` and `field?_ofPairs`.
-/

namespace Switchyard

/-- Only a text is the same key as a text. -/
theorem Scalar.same_text_iff {k : Scalar} {name : String} :
    k.same (.text name) = true ↔ k = .text name := by
  cases k <;> simp [Scalar.same, Scalar.asInt?]

theorem Scalar.text_same_iff {k : Scalar} {name : String} :
    (Scalar.text name).same k = true ↔ k = .text name := by
  cases k with
  | text t => simpa [Scalar.same] using eq_comm
  | null | bool | int | float | bytes | marker | foreign => simp [Scalar.same, Scalar.asInt?]

namespace Entries

variable {es : Entries} {ps qs : List (Scalar × Value)} {name other : String}
  {k : Scalar} {v : Value}

/-- Without a field the others are what they were. -/
theorem field?_drop (hne : name ≠ other) :
    (es.drop (.text other)).field? name = es.field? name := by
  unfold drop field? get?
  rw [List.find?_filter]
  congr 2
  funext entry
  by_cases hsame : entry.1.same (.text name) = true
  · -- An entry under the one name is not dropped with the other.
    have hother : entry.1.same (.text other) = false := by
      rw [Scalar.same_text_iff.mp hsame]
      simpa [Scalar.same] using hne
    simp [hsame, hother]
  · simp [hsame]

/-- The values that pairs have under a name, in their order. -/
def valuesUnder (ps : List (Scalar × Value)) (name : String) : List Value :=
  ps.filterMap fun (k, v) => if k.same (.text name) then some v else none

/-- The value that pairs have last under a name. -/
def last? (ps : List (Scalar × Value)) (name : String) : Option Value :=
  (valuesUnder ps name).getLast?

@[simp] theorem valuesUnder_nil : valuesUnder [] name = [] := rfl

@[simp] theorem valuesUnder_cons :
    valuesUnder ((k, v) :: ps) name = if k.same (.text name) then v :: valuesUnder ps name
      else valuesUnder ps name := by
  by_cases hsame : k.same (.text name) = true <;> simp [valuesUnder, hsame]

@[simp] theorem valuesUnder_append :
    valuesUnder (ps ++ qs) name = valuesUnder ps name ++ valuesUnder qs name :=
  List.filterMap_append

theorem field?_eq_head? : es.field? name = (valuesUnder es name).head? := by
  induction es with
  | nil => rfl
  | cons entry es ih =>
    obtain ⟨k, v⟩ := entry
    unfold field? get? at ih ⊢
    by_cases hsame : k.same (.text name) = true
    · simp [hsame]
    · simp [hsame, ih]

/-- Putting a value takes the place of the first one under the name of its key, and of none
under another name. -/
theorem valuesUnder_put :
    valuesUnder (es.put k v) name = if k.same (.text name) then v :: (valuesUnder es name).tail
      else valuesUnder es name := by
  induction es with
  | nil => simp [put]
  | cons entry es ih =>
    obtain ⟨l, u⟩ := entry
    by_cases hname : k = .text name
    · subst hname
      by_cases hsame : l.same (.text name) = true
      · simp [put, hsame, Scalar.same_text_iff]
      · simp [put, hsame, ih]
    · -- The entry that is changed, if there is one, is not under the name.
      have hk : k.same (.text name) = false := by
        rw [← Bool.not_eq_true, Scalar.same_text_iff]
        exact hname
      by_cases hsame : l.same k = true
      · have hl : l.same (.text name) = false := by
          rw [← Bool.not_eq_true, Scalar.same_text_iff]
          rintro rfl
          exact hname (Scalar.text_same_iff.mp hsame)
        simp [put, hsame, hk, hl]
      · simp [put, hsame, hk, ih]

/-- A value that is put under a name is found there, and nothing changes under another name. -/
theorem field?_put_text :
    (es.put (.text other) v).field? name = if other = name then some v else es.field? name := by
  rw [field?_eq_head?, field?_eq_head?, valuesUnder_put]
  by_cases hname : other = name
  · simp [hname, Scalar.same]
  · simp [hname, Scalar.same]

/-- Putting the value that is there changes nothing. -/
theorem put_eq_self (h : es.get? k = some v) : es.put k v = es := by
  induction es with
  | nil => cases h
  | cons entry es ih =>
    obtain ⟨l, u⟩ := entry
    by_cases hsame : l.same k = true
    · obtain rfl : u = v := by simpa [get?, hsame] using h
      simp [put, hsame]
    · have hrest : get? es k = some v := by simpa [get?, hsame] using h
      simp [put, hsame, ih hrest]

/-- **What is put together from pairs** has one value under a name: the last one of the pairs. -/
theorem valuesUnder_ofPairs : valuesUnder (ofPairs ps) name = (last? ps name).toList := by
  induction ps using List.reverseRecOn with
  | nil => rfl
  | append_singleton ps pair ih =>
    obtain ⟨k, v⟩ := pair
    have hput : ofPairs (ps ++ [(k, v)]) = (ofPairs ps).put k v := by simp [ofPairs]
    rw [hput, valuesUnder_put, ih, last?, last?]
    by_cases hsame : k.same (.text name) = true
    · cases (valuesUnder ps name).getLast? <;> simp [hsame]
    · simp [hsame]

theorem field?_ofPairs : (ofPairs ps).field? name = last? ps name := by
  rw [field?_eq_head?, valuesUnder_ofPairs]
  cases last? ps name <;> rfl

/-- Putting pairs together keeps what they have last under a name. -/
theorem last?_ofPairs : last? (ofPairs ps) name = last? ps name := by
  rw [last?, valuesUnder_ofPairs]
  cases last? ps name <;> rfl

theorem last?_append : last? (ps ++ qs) name = (last? qs name).or (last? ps name) := by
  simp [last?, List.getLast?_append]

/-- Pairs that have nothing under a name can be put before others. -/
theorem last?_ofPairs_append (h : valuesUnder ps name = []) :
    last? (ofPairs (ps ++ qs)) name = last? qs name := by
  rw [last?_ofPairs, last?, valuesUnder_append, h, List.nil_append, last?]

end Entries

end Switchyard
