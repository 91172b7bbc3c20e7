import Switchyard.Proofs.Value.Record
import Mathlib.Data.List.Forall2

/-!
# Entries put one after another

Entries are built by putting pairs one after another, where the first form of a key and its
last value stay. Pairs that correspond make entries that correspond. And the value of one of
the pairs either shows in one place of the entries, or it does not show at all since a later
pair has the same key.

Main statements: `Correspond.ofPairs`, and for pairs with text keys `ofPairs_of_hidden`
and `ofPairs_of_last`.
-/

namespace Switchyard.Entries

/-! ## §1 Entries that correspond -/

section

variable {r : Value → Value → Prop} {es fs : Entries} {ps qs : List (Scalar × Value)} {v w : Value}

/-- **Entries that correspond**: they have the same keys in the same places, and related values. -/
def Correspond (r : Value → Value → Prop) (es fs : Entries) : Prop :=
  List.Forall₂ (fun p q => p.1 = q.1 ∧ r p.2 q.2) es fs

theorem Correspond.keys (h : es.Correspond r fs) : es.map (·.1) = fs.map (·.1) := by
  induction h with
  | nil => rfl
  | cons hpq _ ih => rw [List.map_cons, List.map_cons, hpq.1, ih]

/-- Putting related values under one key keeps entries in correspondence. -/
theorem Correspond.put (h : es.Correspond r fs) (k : Scalar) (hvw : r v w) :
    (es.put k v).Correspond r (fs.put k w) := by
  induction h with
  | nil => exact .cons ⟨rfl, hvw⟩ .nil
  | @cons p q es fs hpq hrest ih =>
    obtain ⟨kp, vp⟩ := p
    obtain ⟨kq, vq⟩ := q
    obtain ⟨rfl, hvalues⟩ := hpq
    simp only [Entries.put]
    split_ifs
    · exact .cons ⟨rfl, hvw⟩ hrest
    · exact .cons ⟨rfl, hvalues⟩ ih

/-- **Pairs that correspond** make entries that correspond. -/
theorem Correspond.ofPairs (h : Correspond r ps qs) :
    (Entries.ofPairs ps).Correspond r (Entries.ofPairs qs) := by
  have hfold : ∀ {es fs : Entries}, es.Correspond r fs →
      (ps.foldl (fun entries pair => entries.put pair.1 pair.2) es).Correspond r
        (qs.foldl (fun entries pair => entries.put pair.1 pair.2) fs) := by
    induction h with
    | nil => exact id
    | @cons p q ps qs hpq _ ih =>
      intro es fs hes
      obtain ⟨kp, vp⟩ := p
      obtain ⟨kq, vq⟩ := q
      obtain ⟨rfl, hvalues⟩ := hpq
      exact ih (hes.put kp hvalues)
  exact hfold .nil

/-- What all values of pairs have in common, those of the entries do. -/
theorem forall_ofPairs {p : Value → Prop} (h : ∀ pair ∈ ps, p pair.2) :
    ∀ entry ∈ Entries.ofPairs ps, p entry.2 := by
  have hself : Correspond (fun v _ => p v) ps ps :=
    List.forall₂_same.mpr fun pair hpair => ⟨rfl, h pair hpair⟩
  intro entry hentry
  exact (List.forall₂_same.mp hself.ofPairs entry hentry).2

end

/-! ## §2 The place of one value -/

variable {name other : String} {front back es : Entries} {v w : Value}
  {before after : List (String × Value)}

/-- Entries among which there is none under a name. -/
def Free (name : String) (es : Entries) : Prop := ∀ entry ∈ es, entry.1.same (.text name) = false

/-- Putting under a name that is there for the first time behind some entries. -/
theorem put_place (h : Free name front) :
    (front ++ (.text name, v) :: back).put (.text name) w = front ++ (.text name, w) :: back := by
  induction front with
  | nil => simp [Entries.put]
  | cons entry front ih =>
    obtain ⟨k, u⟩ := entry
    have hk : k.same (.text name) = false := h (k, u) (List.mem_cons_self ..)
    have hrest := ih fun entry hentry => h entry (List.mem_cons_of_mem _ hentry)
    simp [Entries.put, hk, hrest]

/-- Putting under another name leaves the place as it is. -/
theorem put_elsewhere (h : Free name front) (hne : other ≠ name) (w : Value) :
    ∃ front' back', Free name front' ∧
      ∀ v, (front ++ (.text name, v) :: back).put (.text other) w =
        front' ++ (.text name, v) :: back' := by
  have hnames : (Scalar.text name).same (.text other) = false := by simpa using hne.symm
  induction front with
  | nil => exact ⟨[], back.put (.text other) w, h, fun v => by simp [Entries.put, hnames]⟩
  | cons entry front ih =>
    obtain ⟨k, u⟩ := entry
    have hfront : Free name front := fun entry hentry => h entry (List.mem_cons_of_mem _ hentry)
    have hk : k.same (.text name) = false := h (k, u) (List.mem_cons_self ..)
    -- The new value goes to the first entry if that has the other name, and else further back.
    by_cases hother : k.same (.text other) = true
    · refine ⟨(k, w) :: front, back, ?_, fun v => by simp [Entries.put, hother]⟩
      rintro entry (_ | ⟨_, hentry⟩)
      · exact hk
      · exact hfront entry hentry
    · obtain ⟨front', back', hfree, hput⟩ := ih hfront
      refine ⟨(k, u) :: front', back', ?_, fun v => by simp [Entries.put, hother, hput]⟩
      rintro entry (_ | ⟨_, hentry⟩)
      · exact hk
      · exact hfree entry hentry

/-- Putting under a name makes one place of it. -/
theorem exists_place (name : String) (fields : List (String × Value)) :
    ∃ front back, Free name front ∧ ∀ v, (ofFields fields).put (.text name) v =
      front ++ (.text name, v) :: back := by
  induction fields with
  | nil => exact ⟨[], [], by simp [Free], fun v => rfl⟩
  | cons field fields ih =>
    obtain ⟨s, u⟩ := field
    by_cases hs : s = name
    · exact ⟨[], ofFields fields, by simp [Free], fun v => by simp [Entries.put, hs]⟩
    · obtain ⟨front, back, hfree, hput⟩ := ih
      refine ⟨(.text s, u) :: front, back, ?_, fun v => by simp [Entries.put, hs, hput]⟩
      rintro entry (_ | ⟨_, hentry⟩)
      · simpa using hs
      · exact hfree entry hentry

/-- Putting a value under a name into a record makes a record. -/
theorem IsRecord.put (h : es.IsRecord) (name : String) (v : Value) :
    (es.put (.text name) v).IsRecord := by
  obtain ⟨fields, hnodup, rfl⟩ := h
  by_cases hmem : name ∈ fields.map (·.1)
  · -- The name is there, so the keys stay.
    refine isRecord_of_keys ⟨fields, hnodup, rfl⟩ ?_
    clear hnodup
    induction fields with
    | nil => cases hmem
    | cons field fields ih =>
      by_cases hs : field.1 = name
      · simp [Entries.put, hs]
      · have hrest : name ∈ fields.map (·.1) := (List.mem_cons.mp hmem).resolve_left (Ne.symm hs)
        simp [Entries.put, hs, ih hrest]
  · refine ⟨fields ++ [(name, v)], ?_, put_ofFields v hmem⟩
    rw [List.map_append]
    exact List.Nodup.append hnodup (List.nodup_singleton name) (by simpa using hmem)

/-- **Fields put one after another** make a record. -/
theorem isRecord_ofPairs (fields : List (String × Value)) :
    (ofPairs (ofFields fields)).IsRecord := by
  have hfold : ∀ es : Entries, es.IsRecord →
      ((ofFields fields).foldl (fun entries entry => entries.put entry.1 entry.2) es).IsRecord := by
    induction fields with
    | nil => exact fun es hes => hes
    | cons field fields ih => exact fun es hes => ih _ (hes.put field.1 field.2)
  exact hfold [] ⟨[], List.nodup_nil, rfl⟩

/-- The entries that fields make when further ones are put after one of them. -/
def putAfter (es : Entries) (fields : List (String × Value)) : Entries :=
  (ofFields fields).foldl (fun entries (k, v) => entries.put k v) es

/-- Putting fields with other names leaves the place as it is. -/
theorem putAfter_of_notMem (h : Free name front) (hafter : name ∉ after.map (·.1)) :
    ∃ front' back', ∀ v, putAfter (front ++ (.text name, v) :: back) after =
      front' ++ (.text name, v) :: back' := by
  induction after generalizing front back with
  | nil => exact ⟨front, back, fun v => rfl⟩
  | cons field after ih =>
    obtain ⟨hne, hrest⟩ := not_or.mp (List.mem_cons.not.mp hafter)
    obtain ⟨front', back', hfree, hput⟩ := put_elsewhere h (Ne.symm hne) field.2
    obtain ⟨front'', back'', hall⟩ := ih hfree hrest
    exact ⟨front'', back'', fun v => by rw [← hall v, ← hput v]; rfl⟩

/-- Putting a field with the same name hides what was there. -/
theorem putAfter_of_mem (h : Free name front) (hafter : name ∈ after.map (·.1)) :
    ∃ es, ∀ v, putAfter (front ++ (.text name, v) :: back) after = es := by
  induction after generalizing front back with
  | nil => cases hafter
  | cons field after ih =>
    by_cases hs : field.1 = name
    · refine ⟨putAfter (front ++ (.text name, field.2) :: back) after, fun v => ?_⟩
      rw [← put_place h (w := field.2) (v := v), ← hs]
      rfl
    · have hrest : name ∈ after.map (·.1) := (List.mem_cons.mp hafter).resolve_left (Ne.symm hs)
      obtain ⟨front', back', hfree, hput⟩ := put_elsewhere h hs field.2
      obtain ⟨es, hall⟩ := ih hfree hrest
      exact ⟨es, fun v => by rw [← hall v, ← hput v]; rfl⟩

@[simp] theorem ofFields_append (fields others : List (String × Value)) :
    ofFields (fields ++ others) = ofFields fields ++ ofFields others :=
  List.map_append

/-- The entries of a record put one after another are that record. -/
theorem IsRecord.ofPairs_eq (h : es.IsRecord) : ofPairs es = es := by
  obtain ⟨fields, hnodup, rfl⟩ := h
  exact ofPairs_ofFields hnodup

theorem ofPairs_around (before after : List (String × Value)) (name : String) :
    ∃ front back, Free name front ∧ ∀ v,
      ofPairs (ofFields (before ++ (name, v) :: after)) =
        putAfter (front ++ (.text name, v) :: back) after := by
  obtain ⟨made, -, hmade⟩ := isRecord_ofPairs before
  obtain ⟨front, back, hfree, hput⟩ := exists_place name made
  refine ⟨front, back, hfree, fun v => ?_⟩
  rw [← hput v, ← hmade]
  simp [putAfter, ofPairs, ofFields]

/-- **A value that is hidden**: if a later field has the same name, the entries
do not depend on it. -/
theorem ofPairs_of_hidden (before : List (String × Value)) (h : name ∈ after.map (·.1)) :
    ∃ es, ∀ v, ofPairs (ofFields (before ++ (name, v) :: after)) = es := by
  obtain ⟨front, back, hfree, hall⟩ := ofPairs_around before after name
  obtain ⟨es, hes⟩ := putAfter_of_mem hfree h
  exact ⟨es, fun v => (hall v).trans (hes v)⟩

/-- **A value that shows**: if no later field has the same name, it is in one place of the entries,
and nothing else in them depends on it. -/
theorem ofPairs_of_last (before : List (String × Value)) (h : name ∉ after.map (·.1)) :
    ∃ front back, ∀ v, ofPairs (ofFields (before ++ (name, v) :: after)) =
      front ++ (.text name, v) :: back := by
  obtain ⟨front, back, hfree, hall⟩ := ofPairs_around before after name
  obtain ⟨front', back', hes⟩ := putAfter_of_notMem hfree h
  exact ⟨front', back', fun v => (hall v).trans (hes v)⟩

end Switchyard.Entries
