import Switchyard.Form.Field
import Mathlib.Data.List.Nodup

/-!
# Maps with text keys

A *record* is a map whose keys are texts, each there once. On records the order of the entries and
their keys are plain: putting an entry under a new name appends it, building a record from its own
pairs gives it back, and the check for a map with text keys accepts it as it is.
-/

namespace Switchyard

namespace Entries

/-- The entries with text keys that fields stand for. -/
def ofFields (fields : List (String × Value)) : Entries := fields.map fun (k, v) => (.text k, v)

/-- Entries whose keys are texts, each there once. -/
def IsRecord (entries : Entries) : Prop :=
  ∃ fields : List (String × Value), (fields.map (·.1)).Nodup ∧ entries = ofFields fields

/-! ## §1 Looking up and putting in -/

@[simp] theorem same_text (s t : String) : (Scalar.text s).same (.text t) = (s == t) := rfl

@[simp] theorem ofFields_nil : ofFields [] = [] := rfl

@[simp] theorem ofFields_cons (field : String × Value) (fields : List (String × Value)) :
    ofFields (field :: fields) = (.text field.1, field.2) :: ofFields fields := rfl

/-- An entry under a new name goes to the end. -/
theorem put_ofFields {fields : List (String × Value)} {name : String} (v : Value)
    (hnew : name ∉ fields.map (·.1)) :
    (ofFields fields).put (.text name) v = ofFields (fields ++ [(name, v)]) := by
  induction fields with
  | nil => rfl
  | cons field fields ih =>
    have hne : ¬ field.1 = name := fun h => hnew (by simp [h])
    have hrest : name ∉ fields.map (·.1) := fun h => hnew (List.mem_cons_of_mem _ h)
    simp only [ofFields_cons, Entries.put, same_text, beq_iff_eq, hne, ↓reduceIte, ih hrest,
      List.cons_append]

/-- Putting fields with new names after others appends them all. -/
theorem foldl_put_ofFields (fields front : List (String × Value))
    (hnodup : ((front ++ fields).map (·.1)).Nodup) :
    (ofFields fields).foldl (fun entries (k, v) => entries.put k v) (ofFields front) =
      ofFields (front ++ fields) := by
  -- What is in front grows by one field at each step, so the induction is over any front.
  induction fields generalizing front with
  | nil => simp
  | cons field fields ih =>
    have hnew : field.1 ∉ front.map (·.1) := by
      intro hmem
      rw [List.map_append, List.map_cons] at hnodup
      exact (List.disjoint_of_nodup_append hnodup) hmem (List.mem_cons_self ..)
    simp only [ofFields_cons, List.foldl_cons, put_ofFields field.2 hnew]
    rw [ih (front ++ [(field.1, field.2)]) (by simpa using hnodup)]
    simp

/-- **Building a record** from its own pairs gives it back. -/
theorem ofPairs_ofFields {fields : List (String × Value)} (hnodup : (fields.map (·.1)).Nodup) :
    ofPairs (ofFields fields) = ofFields fields :=
  foldl_put_ofFields fields [] hnodup

/-- A look-up tries the first field and goes on with the others. -/
theorem field?_ofFields_cons (field : String × Value) (fields : List (String × Value))
    (name : String) : (ofFields (field :: fields)).field? name =
      if field.1 = name then some field.2 else (ofFields fields).field? name := by
  by_cases h : field.1 = name
  · simp [field?, get?, h]
  · simp [field?, get?, h]

/-- Fields with different names are all found. -/
theorem field?_ofFields_of_mem {fields : List (String × Value)} {name : String} {v : Value}
    (hnodup : (fields.map (·.1)).Nodup) (h : (name, v) ∈ fields) :
    (ofFields fields).field? name = some v := by
  induction fields with
  | nil => cases h
  | cons field fields ih =>
    obtain ⟨hnew, hrest⟩ := List.nodup_cons.mp hnodup
    rw [field?_ofFields_cons]
    rcases List.mem_cons.mp h with rfl | hmem
    · rw [if_pos rfl]
    · -- The first field has another name, since the name comes again later.
      have hne : field.1 ≠ name := by
        intro heq
        exact hnew (List.mem_map.mpr ⟨(name, v), hmem, heq.symm⟩)
      rw [if_neg hne, ih hrest hmem]

/-- Nothing is found under other names. -/
theorem field?_ofFields_of_notMem {fields : List (String × Value)} {name : String}
    (h : name ∉ fields.map (·.1)) : (ofFields fields).field? name = none := by
  induction fields with
  | nil => rfl
  | cons field fields ih =>
    obtain ⟨hne, hrest⟩ := not_or.mp (mt List.mem_cons.mpr h)
    rw [field?_ofFields_cons, if_neg (Ne.symm hne), ih hrest]

/-- The keys of a record are texts. -/
theorem IsRecord.text_key {entries : Entries} (h : entries.IsRecord) {entry : Scalar × Value}
    (hentry : entry ∈ entries) :
    ∃ name, entry.1 = .text name := by
  obtain ⟨fields, -, rfl⟩ := h
  obtain ⟨field, -, rfl⟩ := List.mem_map.mp hentry
  exact ⟨field.1, rfl⟩

/-- Whether entries are a record can be told from the keys. -/
theorem isRecord_of_keys {entries others : Entries} (h : entries.IsRecord)
    (hkeys : others.map (·.1) = entries.map (·.1)) : others.IsRecord := by
  obtain ⟨fields, hnodup, rfl⟩ := h
  have htexts : (ofFields fields).map (·.1) = (fields.map (·.1)).map Scalar.text := by
    simp [ofFields]
  rw [htexts] at hkeys
  -- Each of the other entries has the key of the field at its place.
  refine ⟨(fields.map (·.1)).zip (others.map (·.2)), ?_, ?_⟩
  · have hlength : fields.length = others.length := by simpa using (congrArg List.length hkeys).symm
    rw [List.map_fst_zip (by simp [hlength])]
    exact hnodup
  -- The entries are put together again from their keys and their values.
  · have hzip : others = (others.map (·.1)).zip (others.map (·.2)) := by
      rw [← List.unzip_fst, ← List.unzip_snd, List.zip_unzip]
    rw [hkeys, List.zip_map_left] at hzip
    exact hzip

end Entries

/-! ## §2 Checking -/

namespace Form

/-- Fields pass the check of text keys as they are. -/
theorem textKeys_ofFields (fields : List (String × Value)) :
    textKeys (Entries.ofFields fields) = .ok (Entries.ofFields fields) := by
  induction fields with
  | nil => rfl
  | cons field fields ih =>
    simp only [Entries.ofFields_cons, textKeys, ih]
    rfl

/-- **A record passes the check** for a map with text keys as it is. -/
theorem dictionary_of_isRecord {entries : Entries} (h : entries.IsRecord) :
    dictionary (.map entries) = .ok entries := by
  obtain ⟨fields, hnodup, rfl⟩ := h
  simp only [dictionary, textKeys_ofFields]
  exact congrArg Except.ok (Entries.ofPairs_ofFields hnodup)

end Form

end Switchyard
