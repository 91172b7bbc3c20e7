import Switchyard.Proofs.Expression.Overrun

/-!
# Where paths lead

A path is followed one segment after another. It leads somewhere only if all the beginnings of it
do; where it leads nowhere, there is a shortest beginning that leads nowhere, and this one is told.
The value that it leads to lacks its last segment, for one of four reasons.

Main statement: what is told of a path that leads nowhere (`valueAt_misses_shortest`).
-/

namespace Switchyard.Expression

variable {σ : Store} {walked rest segments front back p q : List Segment} {segment : Segment}
  {current v w : Value} {entries : Entries}

/-! ## §1 Single segments -/

/-- A segment that names an entry leads to its value. -/
theorem follow_of_field (segment : Segment) (hentries : σ.entries? current = some entries)
    (hfield : entries.field? segment.key = some v) :
    follow σ walked segment current = .ok v := by
  unfold Store.entries? at hentries
  split at hentries
  · rename_i hshape
    obtain rfl := Option.some.inj hentries
    simp only [follow, hshape, hfield]
  · cases hentries

/-- A segment that names no entry leads nowhere. -/
theorem follow_of_no_field (segment : Segment) (hentries : σ.entries? current = some entries)
    (hfield : entries.field? segment.key = none) :
    follow σ walked segment current = .error (.missing walked segment .absent) := by
  unfold Store.entries? at hentries
  split at hentries
  · rename_i hshape
    obtain rfl := Option.some.inj hentries
    simp only [follow, hshape, hfield]
  · cases hentries

/-- **What a value lacks**: it shows nothing under a segment, for a reason. -/
inductive Lacks (σ : Store) (v : Value) (segment : Segment) : MissReason → Prop
  | absent {entries : Entries} : σ.shape v = .mapping entries → entries.field? segment.key = none →
      Lacks σ v segment .absent
  | needsIndex {items : List Value} : σ.shape v = .sequence items → segment.place? = none →
      Lacks σ v segment .needsIndex
  | outOfRange {items : List Value} {n : Int} :
      σ.shape v = .sequence items → segment.place? = some n →
      items.length ≤ n → Lacks σ v segment .outOfRange
  | notContainer {s : Scalar} : σ.shape v = .scalar s → Lacks σ v segment .notContainer

/-- A segment that a value lacks is missing. -/
theorem follow_of_lacks {reason : MissReason} (h : Lacks σ v segment reason)
    (walked : List Segment) :
    follow σ walked segment v = .error (.missing walked segment reason) := by
  cases h with
  | absent hshape hfield => simp only [follow, hshape, hfield]
  | needsIndex hshape hplace => simp only [follow, hshape, hplace]
  | outOfRange hshape hplace hlength =>
    rename_i items n
    -- The place counts from the front, since it is at least the length.
    have hfront : 0 ≤ n := by omega
    have hnone : items[n.toNat]? = none := List.getElem?_eq_none (by omega)
    simp only [follow, hshape, hplace, if_pos hfront, hnone]
  | notContainer hshape => simp only [follow, hshape]

/-- **What a segment selects** in a value: the entry of a map under the text of the segment, or the
item of a list at the place that the segment names, counted from the front. -/
inductive Selects (σ : Store) (v : Value) (segment : Segment) : Value → Prop
  | entry {entries : Entries} {w : Value} : σ.shape v = .mapping entries →
      entries.field? segment.key = some w → Selects σ v segment w
  | item {items : List Value} {n : Nat} {w : Value} : σ.shape v = .sequence items →
      segment.place? = some (n : Int) → items[n]? = some w → Selects σ v segment w

/-- A segment leads to the value that it selects. -/
theorem follow_of_selects (h : Selects σ v segment w) (walked : List Segment) :
    follow σ walked segment v = .ok w := by
  cases h with
  | entry hshape hfield => simp only [follow, hshape, hfield]
  | item hshape hplace hitem =>
    rename_i items n
    have hfront : (0 : Int) ≤ n := Int.natCast_nonneg n
    simp only [follow, hshape, hplace, if_pos hfront, Int.toNat_natCast, hitem]

/-- **A segment that counts from the front** selects something in a value, or the value lacks it. -/
theorem selects_or_lacks (h : segment.FromFront) (σ : Store) (v : Value) :
    (∃ w, Selects σ v segment w) ∨ ∃ reason, Lacks σ v segment reason := by
  cases hshape : σ.shape v with
  | scalar s => exact .inr ⟨_, .notContainer hshape⟩
  | mapping entries =>
    cases hfield : entries.field? segment.key with
    | none => exact .inr ⟨_, .absent hshape hfield⟩
    | some w => exact .inl ⟨w, .entry hshape hfield⟩
  | sequence items =>
    cases hplace : segment.place? with
    | none => exact .inr ⟨_, .needsIndex hshape hplace⟩
    | some n =>
      by_cases hlength : items.length ≤ n
      · exact .inr ⟨_, .outOfRange hshape hplace hlength⟩
      · have hfront : 0 ≤ n := h n hplace
        have hitem : items[n.toNat]? = some items[n.toNat] := List.getElem?_eq_getElem (by omega)
        rw [← Int.toNat_of_nonneg hfront] at hplace
        exact .inl ⟨items[n.toNat], .item hshape hplace hitem⟩

/-- A segment that counts from the front leads to what it selects, and nowhere else. -/
theorem valueAt_singleton_iff (h : segment.FromFront) :
    valueAt σ [segment] v = .ok w ↔ Selects σ v segment w := by
  have hfollow : valueAt σ [segment] v = follow σ [segment] segment v := by
    rw [valueAt, walk, List.nil_append]
    cases follow σ [segment] segment v <;> rfl
  rw [hfollow]
  constructor
  · intro hw
    rcases selects_or_lacks h σ v with ⟨w', hselects⟩ | ⟨reason, hlacks⟩
    · rw [follow_of_selects hselects] at hw
      obtain rfl := Except.ok.inj hw
      exact hselects
    · rw [follow_of_lacks hlacks] at hw
      cases hw
  · intro hselects
    exact follow_of_selects hselects _

/-- What has been walked is only told: where a segment leads does not depend on it. -/
theorem follow_ok_of_walked {walked' : List Segment} (h : follow σ walked segment v = .ok w) :
    follow σ walked' segment v = .ok w := by
  unfold follow at h ⊢
  cases hshape : σ.shape v with
  | scalar s =>
    rw [hshape] at h
    cases h
  | mapping entries =>
    rw [hshape] at h
    cases hfield : entries.field? segment.key with
    | none =>
      simp only [hfield] at h
      cases h
    | some u => simpa only [hfield] using h
  | sequence items =>
    rw [hshape] at h
    cases hplace : segment.place? with
    | none =>
      simp only [hplace] at h
      cases h
    | some n =>
      simp only [hplace] at h ⊢
      split_ifs at h ⊢
      · cases hitem : items[n.toNat]? with
        | none =>
          rw [hitem] at h
          cases h
        | some u => rwa [hitem] at h
      · exact h

/-! ## §2 Paths in a row -/

/-- A walk goes on from where its first segment leads. -/
theorem walk_cons_of_ok (h : follow σ (walked ++ [segment]) segment current = .ok v) :
    walk σ walked (segment :: rest) current = walk σ (walked ++ [segment]) rest v := by
  rw [walk, h]
  rfl

/-- A walk ends where a segment leads nowhere. -/
theorem walk_cons_of_error {problem : EvalProblem}
    (h : follow σ (walked ++ [segment]) segment current = .error problem) :
    walk σ walked (segment :: rest) current = .error problem := by
  rw [walk, h]
  rfl

theorem walk_ok_of_walked {walked' : List Segment} (h : walk σ walked p v = .ok w) :
    walk σ walked' p v = .ok w := by
  induction p generalizing walked walked' v with
  | nil => exact h
  | cons segment rest ih =>
    obtain ⟨next, hfollow, hrest⟩ := bind_ok_iff.mp h
    exact bind_ok_iff.mpr ⟨next, follow_ok_of_walked hfollow, ih hrest⟩

/-- Paths in a row are walked one after the other. -/
theorem walk_append (walked p q : List Segment) (v : Value) :
    walk σ walked (p ++ q) v = walk σ walked p v >>= walk σ (walked ++ p) q := by
  induction p generalizing walked v with
  | nil => rw [List.nil_append, List.append_nil]; rfl
  | cons segment rest ih =>
    simp only [List.cons_append, walk, bind_assoc]
    congr 1
    funext next
    rw [ih, List.append_assoc, List.singleton_append]

/-- **Paths in a row**: the second one goes on from where the first one leads. -/
theorem valueAt_append_iff :
    valueAt σ (p ++ q) v = .ok w ↔ ∃ u, valueAt σ p v = .ok u ∧ valueAt σ q u = .ok w := by
  rw [valueAt, walk_append, bind_ok_iff]
  constructor
  · rintro ⟨u, hfirst, hsecond⟩
    exact ⟨u, hfirst, walk_ok_of_walked hsecond⟩
  · rintro ⟨u, hfirst, hsecond⟩
    exact ⟨u, hfirst, walk_ok_of_walked hsecond⟩

/-- A path that comes to a segment that is lacking is missing from there on, whatever follows. -/
theorem valueAt_of_lacks {reason : MissReason} (hfront : valueAt σ front v = .ok w)
    (h : Lacks σ w segment reason) (back : List Segment) :
    valueAt σ (front ++ segment :: back) v =
      .error (.missing (front ++ [segment]) segment reason) := by
  rw [valueAt] at hfront
  rw [valueAt, walk_append, hfront]
  show walk σ front (segment :: back) w = _
  rw [walk, follow_of_lacks h]
  rfl

/-! ## §3 Paths that lead nowhere -/

/-- **A path leads somewhere** from a context. -/
def Resolves (σ : Store) (context : Value) (path : List Segment) : Prop :=
  ∃ v, valueAt σ path context = .ok v

/-- The beginnings of a path that leads somewhere lead somewhere. -/
theorem Resolves.of_prefix {context : Value} (h : Resolves σ context segments)
    (hp : p <+: segments) : Resolves σ context p := by
  obtain ⟨q, rfl⟩ := hp
  obtain ⟨v, hv⟩ := h
  obtain ⟨u, hu, -⟩ := valueAt_append_iff.mp hv
  exact ⟨u, hu⟩

/-- **A path that counts from the front** leads somewhere or comes to a segment that is lacking. -/
theorem resolves_or_lacks (h : ∀ s ∈ segments, s.FromFront) (σ : Store) (v : Value) :
    Resolves σ v segments ∨ ∃ front segment back w reason, segments = front ++ segment :: back ∧
      valueAt σ front v = .ok w ∧ Lacks σ w segment reason := by
  induction segments generalizing v with
  | nil => exact .inl ⟨v, rfl⟩
  | cons segment rest ih =>
    obtain ⟨hsegment, hrest⟩ := List.forall_mem_cons.mp h
    rcases selects_or_lacks hsegment σ v with ⟨next, hnext⟩ | ⟨reason, hlacks⟩
    · -- The first segment leads on, and the rest is walked from there.
      have hfirst : valueAt σ [segment] v = .ok next := (valueAt_singleton_iff hsegment).mpr hnext
      rcases ih hrest next with ⟨w, hw⟩ | ⟨front, lacking, back, w, reason, rfl, hfront, hlacks⟩
      · exact .inl ⟨w, valueAt_append_iff.mpr ⟨next, hfirst, hw⟩⟩
      · exact .inr ⟨segment :: front, lacking, back, w, reason, rfl,
          valueAt_append_iff.mpr ⟨next, hfirst, hfront⟩, hlacks⟩
    · exact .inr ⟨[], segment, rest, v, reason, rfl, rfl, hlacks⟩

/-- Which beginnings of a path lead nowhere that comes to a segment that is lacking:
those that have it. -/
theorem not_resolves_iff_of_lacks {context : Value} {reason : MissReason}
    (hfront : valueAt σ front context = .ok w) (h : Lacks σ w segment reason)
    (hp : p <+: front ++ segment :: back) :
    ¬ Resolves σ context p ↔ front ++ [segment] <+: p := by
  constructor
  · intro hnot
    have hshortest : front ++ [segment] <+: front ++ segment :: back := ⟨back, by simp⟩
    -- A beginning that is shorter leads somewhere, since the path does up to the segment.
    rcases List.prefix_or_prefix_of_prefix hp hshortest with hshort | hlong
    · rcases List.prefix_concat_iff.mp hshort with rfl | hbefore
      · exact List.prefix_refl _
      · exact absurd (Resolves.of_prefix ⟨w, hfront⟩ hbefore) hnot
    · exact hlong
  · rintro ⟨more, rfl⟩ ⟨u, hu⟩
    rw [List.append_assoc, List.singleton_append, valueAt_of_lacks hfront h] at hu
    cases hu

/-- **What is told of a path that leads nowhere**: names and places from the front lead nowhere
exactly if one of the beginnings of the path does. Then there is a shortest one among these, and
the error tells this one, its last segment and why the value before it lacks that segment. Where
one path followed by another leads, the other one leads from the value that the first one leads
to; and where a single segment leads is what it selects: an entry of a map by its text, an item of
a list by its place. -/
theorem valueAt_misses_shortest (h : ∀ s ∈ segments, s.FromFront) (σ : Store) (context : Value) :
    ((∃ e, valueAt σ segments context = .error e) ↔
      ∃ p, p ≠ [] ∧ p <+: segments ∧ ¬ Resolves σ context p) ∧
    (∀ e, valueAt σ segments context = .error e → ∃ front segment v reason,
      front ++ [segment] <+: segments ∧
      (∀ p, p <+: segments → (¬ Resolves σ context p ↔ front ++ [segment] <+: p)) ∧
      valueAt σ front context = .ok v ∧ Lacks σ v segment reason ∧
      e.raised = .fault (.missing (dotted (front ++ [segment])) (.text segment.key) reason.text)) ∧
    (∀ p q v, valueAt σ (p ++ q) context = .ok v ↔
      ∃ u, valueAt σ p context = .ok u ∧ valueAt σ q u = .ok v) ∧
    ∀ segment : Segment, segment.FromFront → ∀ v w,
      valueAt σ [segment] v = .ok w ↔ Selects σ v segment w := by
  refine ⟨⟨?_, ?_⟩, ?_, fun p q v => valueAt_append_iff,
    fun _ hsegment _ _ => valueAt_singleton_iff hsegment⟩
  · rintro ⟨e, he⟩
    refine ⟨segments, ?_, List.prefix_refl _, ?_⟩
    · rintro rfl
      cases he
    · rintro ⟨v, hv⟩
      rw [hv] at he
      cases he
  · rintro ⟨p, -, hp, hnot⟩
    cases hvalue : valueAt σ segments context with
    | error e => exact ⟨e, rfl⟩
    | ok v => exact absurd (Resolves.of_prefix ⟨v, hvalue⟩ hp) hnot
  · intro e he
    rcases resolves_or_lacks h σ context
        with ⟨v, hv⟩ | ⟨front, segment, back, w, reason, rfl, hfront, hlacks⟩
    · rw [hv] at he
      cases he
    · refine ⟨front, segment, w, reason, ⟨back, by simp⟩, fun p =>
        not_resolves_iff_of_lacks hfront hlacks, hfront, hlacks, ?_⟩
      obtain rfl := Except.error.inj ((valueAt_of_lacks hfront hlacks back).symm.trans he)
      rfl

/-- Data with a list of two items. -/
def twoItems : Value :=
  .map (Entries.ofFields [("input",
    .map (Entries.ofFields [("items", .list [.text "A", .text "B"])]))])

/-- The path to the name of a third item. -/
def thirdName : List Segment := [.name "input", .name "items", .index 2, .name "name"]

/-- The third item is what is missing on the way to its name. -/
theorem valueAt_misses_shortest_thirdName :
    (∀ s ∈ thirdName, s.FromFront) ∧ ∃ e, valueAt .empty thirdName twoItems = .error e ∧
      ∃ front segment v reason, front ++ [segment] <+: thirdName ∧
        (∀ p, p <+: thirdName → (¬ Resolves .empty twoItems p ↔ front ++ [segment] <+: p)) ∧
        valueAt .empty front twoItems = .ok v ∧ Lacks .empty v segment reason ∧
        e.raised =
          .fault (.missing (dotted (front ++ [segment])) (.text segment.key) reason.text) := by
  have hfront : ∀ s ∈ thirdName, s.FromFront := by
    intro s hs n hplace
    simp only [thirdName, List.mem_cons, List.not_mem_nil, or_false] at hs
    rcases hs with rfl | rfl | rfl | rfl <;> cases hplace
    decide
  have herror : valueAt .empty thirdName twoItems =
      .error (.missing [.name "input", .name "items", .index 2] (.index 2) .outOfRange) := rfl
  exact ⟨hfront, _, herror, (valueAt_misses_shortest hfront .empty twoItems).2.1 _ herror⟩

end Switchyard.Expression
