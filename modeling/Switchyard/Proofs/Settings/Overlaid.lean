import Switchyard.Proofs.Value.Fields
import Switchyard.Proofs.Value.Record
import Switchyard.Settings.Overlay

/-!
# What an overlay changes

An overlay is a map, and so may be what it has under its keys, at any depth. Where it has something
else, this takes the place of whatever was there; where it has nothing, everything is as it was; and
where it has a map, there is a map afterwards. So the same overlay changes nothing a second time.

Main statement: where an overlay prevails (`Entries.overlay_prevails`).
-/

namespace Switchyard

/-! ## §1 Paths of keys -/

namespace Value

/-- The value at the end of a path of keys, if maps lead there. -/
def at? : Value → List String → Option Value
  | v, [] => some v
  | .map entries, k :: path => (Entries.field? entries k).bind fun w => at? w path
  | _, _ :: _ => none

def isMap : Value → Bool
  | .map _ => true
  | _ => false

variable {u v w base overlay : Value} {k : String} {path rest : List String}
  {entries under : Entries}

@[simp] theorem at?_nil : v.at? [] = some v := by
  cases v <;> rfl

theorem at?_map :
    (Value.map entries).at? (k :: path) = (Entries.field? entries k).bind fun w => w.at? path := rfl

theorem at?_of_not_isMap (h : v.isMap = false) : v.at? (k :: path) = none := by
  cases v with
  | map entries => cases h
  | atom _ | list _ | tuple _ | shared _ => rfl

theorem exists_entries_of_isMap (h : v.isMap = true) : ∃ entries, v = .map entries := by
  cases v with
  | map entries => exact ⟨entries, rfl⟩
  | atom _ | list _ | tuple _ | shared _ => cases h

/-- What lies further down a path is found from where the path leads. -/
theorem at?_append : v.at? (path ++ rest) = (v.at? path).bind (·.at? rest) := by
  induction path generalizing v with
  | nil => simp
  | cons k path ih =>
    cases hmap : v.isMap with
    | false => rw [List.cons_append, at?_of_not_isMap hmap, at?_of_not_isMap hmap, Option.bind_none]
    | true =>
      obtain ⟨entries, rfl⟩ := exists_entries_of_isMap hmap
      rw [List.cons_append, at?_map, at?_map, Option.bind_assoc]
      simp only [ih]

/-- **Nested maps with text keys**: each map has each of its keys once. -/
inductive IsNested : Value → Prop
  | leaf {v : Value} : v.isMap = false → IsNested v
  | map {fields : List (String × Value)} :
      (fields.map (·.1)).Nodup → (∀ field ∈ fields, IsNested field.2) →
      IsNested (.map (Entries.ofFields fields))

/-! ## §2 One map over another -/

/-- Anything but a map takes the place of what was there. -/
theorem overlaid_leaf (h : v.isMap = false) : u.overlaid v = v := by
  cases v with
  | map entries => cases h
  | atom _ | list _ | tuple _ | shared _ => simp [overlaid]

/-- A map takes the place of anything but a map. -/
theorem leaf_overlaid (h : u.isMap = false) : u.overlaid (.map entries) = .map entries := by
  cases u with
  | map under => cases h
  | atom _ | list _ | tuple _ | shared _ => simp [overlaid]

theorem map_overlaid :
    (Value.map under).overlaid (.map entries) = .map (under.overlaid entries) := by
  simp [overlaid]

/-- Over nothing a value is laid as it is. -/
theorem null_overlaid : Value.null.overlaid v = v := by
  cases hmap : v.isMap with
  | false => exact overlaid_leaf hmap
  | true =>
    obtain ⟨entries, rfl⟩ := exists_entries_of_isMap hmap
    exact leaf_overlaid rfl

/-- What is at a key, or else null: below both of them there is nothing. -/
def child (v : Value) (k : String) : Value := (v.at? [k]).getD .null

theorem at?_child (hne : path ≠ []) : v.at? (k :: path) = (v.child k).at? path := by
  have hsplit : v.at? (k :: path) = (v.at? [k]).bind (·.at? path) := @at?_append v [k] path
  rw [hsplit, child]
  cases v.at? [k] with
  | some w => rfl
  | none =>
    obtain ⟨k', path, rfl⟩ := List.exists_cons_of_ne_nil hne
    exact (at?_of_not_isMap rfl).symm

end Value

namespace Entries

variable {base entries : Entries} {fields : List (String × Value)} {name : String} {v : Value}

theorem overlaid_cons (field : String × Value) : base.overlaid (ofFields (field :: fields)) =
    (base.put (.text field.1) (((base.field? field.1).getD .null).overlaid field.2)).overlaid
      (ofFields fields) := by
  rw [ofFields_cons, overlaid, field?]
  cases base.get? (.text field.1) with
  | none => rw [Option.getD_none, Value.null_overlaid]
  | some under => rfl

/-- **What is under a name** afterwards: what the overlay has there, laid over what was there. -/
theorem field?_overlaid (hnodup : (fields.map (·.1)).Nodup) :
    (base.overlaid (ofFields fields)).field? name =
    match (ofFields fields).field? name with
    | some v => some (((base.field? name).getD .null).overlaid v)
    | none => base.field? name := by
  induction fields generalizing base with
  | nil => rfl
  | cons field fields ih =>
    obtain ⟨hnew, hrest⟩ := List.nodup_cons.mp hnodup
    rw [overlaid_cons, ih hrest, field?_ofFields_cons, field?_put_text]
    by_cases hname : field.1 = name
    · -- The name does not come again.
      subst hname
      simp [field?_ofFields_of_notMem hnew]
    · simp [hname]

/-- An overlay changes nothing where all its values change nothing. -/
theorem overlaid_eq_self
    (h : ∀ field ∈ fields, ∃ w, base.field? field.1 = some w ∧ w.overlaid field.2 = w) :
    base.overlaid (ofFields fields) = base := by
  induction fields with
  | nil => rfl
  | cons field fields ih =>
    obtain ⟨⟨w, hw, hsame⟩, hrest⟩ := List.forall_mem_cons.mp h
    have hput : base.put (.text field.1) w = base := put_eq_self hw
    rw [overlaid_cons, hw, Option.getD_some, hsame, hput, ih hrest]

end Entries

namespace Value

variable {u v w base overlay : Value} {k : String} {path rest : List String}
  {entries under : Entries} {fields : List (String × Value)}

/-- **A map laid over anything** is a map, with the children of the overlay laid over
those that were there. -/
theorem overlaid_map (hnodup : (fields.map (·.1)).Nodup) (base : Value) :
    ∃ entries : Entries, base.overlaid (.map (Entries.ofFields fields)) = .map entries ∧
      (∀ k v, (Entries.ofFields fields).field? k = some v →
        entries.field? k = some ((base.child k).overlaid v)) ∧
      ∀ k, (Entries.ofFields fields).field? k = none →
        ∀ path, (Value.map entries).at? (k :: path) = base.at? (k :: path) := by
  cases hmap : base.isMap with
  | true =>
    obtain ⟨under, rfl⟩ := exists_entries_of_isMap hmap
    have hchild : ∀ k, (Value.map under).child k = (Entries.field? under k).getD .null := by
      intro k
      simp [child, at?_map]
    refine ⟨Entries.overlaid under (Entries.ofFields fields), map_overlaid, fun k v hv =>
      ?_, fun k hnone path => ?_⟩
    · rw [Entries.field?_overlaid hnodup, hv, hchild]
    · rw [at?_map, at?_map, Entries.field?_overlaid hnodup, hnone]
  | false =>
    have hchild : ∀ k, base.child k = .null := by
      intro k
      rw [child, at?_of_not_isMap hmap, Option.getD_none]
    refine ⟨Entries.ofFields fields, leaf_overlaid hmap, fun k v hv => ?_, fun k hnone path => ?_⟩
    · rw [hv, hchild, null_overlaid]
    · rw [at?_map, hnone, at?_of_not_isMap hmap, Option.bind_none]

theorem isNested_of_field? (h : ∀ field ∈ fields, IsNested field.2)
    (hv : (Entries.ofFields fields).field? k = some v) :
    v.IsNested := by
  induction fields with
  | nil => cases hv
  | cons field fields ih =>
    obtain ⟨hfirst, hrest⟩ := List.forall_mem_cons.mp h
    rw [Entries.field?_ofFields_cons] at hv
    split_ifs at hv
    · obtain rfl := Option.some.inj hv
      exact hfirst
    · exact ih hrest hv

/-! ## §3 Along a path -/

/-- **Where an overlay has a value**, this is laid over what was there, or over something below
which there is as little. -/
theorem at?_overlaid (base : Value) (h : overlay.IsNested) (hv : overlay.at? path = some v) :
    v.IsNested ∧ ∃ under : Value, (base.overlaid overlay).at? path = some (under.overlaid v) ∧
      ∀ k rest, base.at? (path ++ k :: rest) = under.at? (k :: rest) := by
  induction path generalizing base overlay with
  | nil =>
    obtain rfl : overlay = v := by simpa using hv
    exact ⟨h, base, at?_nil, fun k rest => rfl⟩
  | cons k path ih =>
    cases h with
    | leaf hleaf =>
      rw [at?_of_not_isMap hleaf] at hv
      cases hv
    | @map fields hnodup hnested =>
      rw [at?_map, Option.bind_eq_some_iff] at hv
      obtain ⟨w, hw, hv⟩ := hv
      obtain ⟨entries, hentries, hfields, -⟩ := overlaid_map hnodup base
      obtain ⟨hnested', under, hunder, hrest⟩ :=
        ih (base.child k) (isNested_of_field? hnested hw) hv
      refine ⟨hnested', under, ?_, fun k' rest => ?_⟩
      · rw [hentries, at?_map, hfields k w hw, Option.bind_some, hunder]
      · rw [List.cons_append, at?_child (by simp), hrest]

/-- **An overlay prevails** where it has something, and only there. -/
structure Prevails (base overlay result : Value) : Prop where
  /-- What is no map takes the place of what was there. -/
  replaced : ∀ path v, overlay.at? path = some v → v.isMap = false → result.at? path = some v
  /-- Below it there is nothing. -/
  hidden : ∀ path v k rest, overlay.at? path = some v → v.isMap = false →
    result.at? (path ++ k :: rest) = none
  /-- Below a map that lacks the next key everything is as it was. -/
  kept : ∀ path entries k rest, overlay.at? path = some (.map entries) →
    Entries.field? entries k = none →
    result.at? (path ++ k :: rest) = base.at? (path ++ k :: rest)
  /-- Where there is a map, there is one afterwards. -/
  merged : ∀ path entries, overlay.at? path = some (.map entries) →
    ∃ entries', result.at? path = some (.map entries')

/-- A value of nested maps prevails over any other value. -/
theorem prevails_overlaid (base : Value) (h : overlay.IsNested) :
    Prevails base overlay (base.overlaid overlay) where
  replaced path v hv hleaf := by
    obtain ⟨-, under, hunder, -⟩ := at?_overlaid base h hv
    rw [hunder, overlaid_leaf hleaf]
  hidden path v k rest hv hleaf := by
    obtain ⟨-, under, hunder, -⟩ := at?_overlaid base h hv
    rw [at?_append, hunder, overlaid_leaf hleaf, Option.bind_some, at?_of_not_isMap hleaf]
  kept path entries k rest hv hnone := by
    obtain ⟨hnested, under, hunder, hbelow⟩ := at?_overlaid base h hv
    rw [hbelow, at?_append, hunder, Option.bind_some]
    cases hnested with
    | leaf hleaf => cases hleaf
    | map hnodup _ =>
      obtain ⟨entries', hentries, -, hothers⟩ := overlaid_map hnodup under
      rw [hentries, hothers k hnone]
  merged path entries hv := by
    obtain ⟨hnested, under, hunder, -⟩ := at?_overlaid base h hv
    cases hnested with
    | leaf hleaf => cases hleaf
    | map hnodup _ =>
      obtain ⟨entries', hentries, -⟩ := overlaid_map hnodup under
      exact ⟨entries', by rw [hunder, hentries]⟩

/-- **The same overlay changes nothing a second time.** -/
theorem overlaid_overlaid (h : overlay.IsNested) (base : Value) :
    (base.overlaid overlay).overlaid overlay = base.overlaid overlay := by
  induction h generalizing base with
  | leaf hleaf => rw [overlaid_leaf hleaf, overlaid_leaf hleaf]
  | @map fields hnodup _ ih =>
    obtain ⟨entries, hentries, hfields, -⟩ := overlaid_map hnodup base
    rw [hentries, map_overlaid, Entries.overlaid_eq_self]
    intro field hfield
    have hthere : (Entries.ofFields fields).field? field.1 = some field.2 :=
      Entries.field?_ofFields_of_mem hnodup hfield
    exact ⟨_, hfields field.1 field.2 hthere, ih field hfield (base.child field.1)⟩

end Value

namespace Entries

/-- **An overlay of nested maps prevails** exactly where it has something, and changes
nothing a second time. -/
theorem overlay_prevails (base : Entries) {overlay : Entries} (h : (Value.map overlay).IsNested) :
    Value.Prevails (.map base) (.map overlay) (.map (base.overlaid overlay)) ∧
      (base.overlaid overlay).overlaid overlay = base.overlaid overlay := by
  have hprevails := Value.prevails_overlaid (.map base) h
  have htwice := Value.overlaid_overlaid h (.map base)
  rw [Value.map_overlaid] at hprevails
  rw [Value.map_overlaid, Value.map_overlaid] at htwice
  exact ⟨hprevails, Value.map.inj htwice⟩

/-- Entries with numbers and maps. -/
def plainEntries : Entries :=
  ofFields [("a", .record [("x", .int 1), ("y", .int 2)]), ("b", .record [("z", .int 3)])]

/-- An overlay that has a map in place of a number and a number in place of a map. -/
def crossedOverlay : Entries :=
  ofFields [("a", .record [("x", .record [("w", .int 4)])]), ("b", .int 5)]

/-- What comes of a map in place of a number, and of a number in place of a map. -/
theorem overlay_prevails_crossed : (Value.map crossedOverlay).IsNested ∧
    let result := plainEntries.overlaid crossedOverlay
    (Value.map result).at? ["a", "x", "w"] = some (.int 4) ∧
      (Value.map result).at? ["b", "z"] = none ∧
      (Value.map result).at? ["a", "y"] = some (.int 2) ∧
        result.overlaid crossedOverlay = result := by
  have hinner : (Value.record [("w", .int 4)]).IsNested :=
    .map (by decide) (by simpa using .leaf rfl)
  have houter : (Value.record [("x", .record [("w", .int 4)])]).IsNested :=
    .map (by decide) (by simpa using hinner)
  have hnested : (Value.map crossedOverlay).IsNested :=
    .map (by decide) (by simpa using ⟨houter, .leaf rfl⟩)
  obtain ⟨hprevails, htwice⟩ := overlay_prevails plainEntries hnested
  exact ⟨hnested, hprevails.replaced ["a", "x", "w"] (.int 4) rfl rfl,
    hprevails.hidden ["b"] (.int 5) "z" [] rfl rfl, hprevails.kept ["a"] _ "y" [] rfl rfl, htwice⟩

end Entries

end Switchyard
