import Switchyard.Proofs.Units.Registrations

/-!
# Look-ups of units

A unit that was found once is found by all later look-ups of its name, until the name is removed;
its factory, if it has one, is not asked again. A factory that returns nothing has not returned a
unit, and is asked again by the next look-up.

Main statements: when a look-up finds nothing (`Catalog.answer_none_iff`), that a unit stays there
until it is removed (`Catalog.Settled.perform`), and that a factory returns at most once if it never
returns nothing (`Catalog.returnsOnce_lookUps`).
-/

namespace Switchyard

/-! ## §1 Look-ups -/

/-- **A look-up** of a name: whether the name was registered, what its factory returned if it was
asked in this look-up and did return, and what was answered. -/
structure LookUp where
  name : String
  known : Bool
  returned : Option (Option StepUnit)
  answer : Except Raised (Option StepUnit)

/-- What the factory of an entry returns if the entry is looked up: nothing is asked of it if
there is a unit already. -/
def UnitEntry.returned (entry : UnitEntry) (attempt : Nat) : Option (Option StepUnit) :=
  match entry.source with
  | .built factory none => (factory attempt entry.config).toOption
  | .given _ | .built _ (some _) => none

namespace CatalogCall

/-- The name that a call looks up. -/
def lookedUp? : CatalogCall → Option String
  | .get name => some name
  | .register .. | .addFunction .. | .addFactory .. | .remove _ | .clear | .addBuiltins => none

/-- The factory that a call registers. -/
def factory? : CatalogCall → Option Factory
  | .addFactory _ factory .. => some factory
  | .register .. | .addFunction .. | .remove _ | .get _ | .clear | .addBuiltins => none

/-- Whether a call removes a name. -/
def removes (call : CatalogCall) (name : String) : Bool :=
  match call with
  | .remove other => other == name
  | .clear => true
  | .register .. | .addFunction .. | .addFactory .. | .get _ | .addBuiltins => false

end CatalogCall

namespace Catalog

/-- Looking a name up, as it goes. -/
def lookUp (catalog : Catalog) (name : String) : LookUp where
  name
  known := catalog.contains name
  returned := (catalog.find? name).bind (·.returned catalog.builds.length)
  answer := (catalog.get name).1

/-- The look-ups in a run of calls. -/
def lookUps (catalog : Catalog) : List CatalogCall → List LookUp
  | [] => []
  | call :: rest =>
    (call.lookedUp?.map catalog.lookUp).toList ++ (catalog.perform call).2.lookUps rest

end Catalog

/-- **A factory returns at most once** in look-ups of its name, and what it returned is
found by all later ones. -/
structure ReturnsOnce (lookUps : List LookUp) : Prop where
  once : (lookUps.filterMap (·.returned)).length ≤ 1
  same : lookUps.Pairwise fun earlier later => ∀ made, earlier.returned = some made →
    later.answer = .ok made

namespace ReturnsOnce

variable {lookUp : LookUp} {lookUps : List LookUp}

/-- A look-up in which no factory returned can come before others. -/
theorem cons_of_none (hnone : lookUp.returned = none) (h : ReturnsOnce lookUps) :
    ReturnsOnce (lookUp :: lookUps) where
  once := by simpa [hnone] using h.once
  same := List.pairwise_cons.mpr ⟨by simp [hnone], h.same⟩

/-- A look-up in which the factory returned comes before those that find what it
returned and do not ask it. -/
theorem cons_of_found {made : Option StepUnit} (hsome : lookUp.returned = some made)
    (hfound : ∀ later ∈ lookUps, later.returned = none ∧ later.answer = .ok made) :
    ReturnsOnce (lookUp :: lookUps) := by
  have hnever : lookUps.filterMap (·.returned) = [] :=
    List.filterMap_eq_nil_iff.mpr fun later hlater => (hfound later hlater).1
  constructor
  · simp [hsome, hnever]
  · refine List.pairwise_cons.mpr ⟨?_, ?_⟩
    · intro later hlater made' hmade'
      obtain rfl := Option.some.inj (hsome.symm.trans hmade')
      exact (hfound later hlater).2
    · apply List.pairwise_of_forall_mem_list
      intro earlier hearlier later _ made' hmade'
      simp [(hfound earlier hearlier).1] at hmade'

end ReturnsOnce

/-! ## §2 What a factory returned is found ever after -/

namespace Catalog

variable {catalog catalog' : Catalog} {name other : String} {unit : StepUnit}
  {made : Option StepUnit} {calls : List CatalogCall} {call : CatalogCall}

/-- A name is registered exactly if it has an entry. -/
theorem contains_eq_isSome_find? : catalog.contains name = (catalog.find? name).isSome := by
  rw [Bool.eq_iff_iff, contains, find?, List.find?_isSome, List.any_eq_true]

/-- What a factory returns is what the look-up answers. -/
theorem answer_of_returned (h : (catalog.lookUp name).returned = some made) :
    (catalog.lookUp name).answer = .ok made := by
  simp only [lookUp] at h ⊢
  obtain ⟨entry, hentry, hreturned⟩ := Option.bind_eq_some_iff.mp h
  unfold UnitEntry.returned at hreturned
  split at hreturned
  · rename_i factory hsource
    simp only [get, hentry, hsource]
    cases hmade : factory catalog.builds.length entry.config with
    | error e => simp [hmade, Except.toOption] at hreturned
    | ok found =>
      rw [hmade] at hreturned
      obtain rfl := Option.some.inj hreturned
      rfl
  · simp at hreturned
  · simp at hreturned

theorem known_of_returned (h : (catalog.lookUp name).returned = some made) :
    (catalog.lookUp name).known = true := by
  obtain ⟨entry, hentry, -⟩ := Option.bind_eq_some_iff.mp h
  show catalog.contains name = true
  simp [contains_eq_isSome_find?, hentry]

/-- **A look-up finds nothing** exactly if nothing is registered, or if the factory was asked
and returned nothing. -/
theorem answer_none_iff : (catalog.lookUp name).answer = .ok none ↔
    (catalog.lookUp name).known = false ∨ (catalog.lookUp name).returned = some none := by
  constructor
  · intro hanswer
    cases hentry : catalog.find? name with
    | none =>
      left
      show catalog.contains name = false
      simp [contains_eq_isSome_find?, hentry]
    | some entry =>
      right
      simp only [lookUp, get, hentry] at hanswer ⊢
      rw [Option.bind_some, UnitEntry.returned]
      split at hanswer
      · cases hanswer
      · cases hanswer
      · rename_i factory hsource
        -- Nothing is there yet, so this is what the factory returned.
        cases hmade : factory catalog.builds.length entry.config with
        | error e => simp [hmade] at hanswer
        | ok made =>
          obtain rfl : made = none := by simpa [hmade] using hanswer
          simp [hsource, hmade, Except.toOption]
  · rintro (hunknown | hreturned)
    · have hentry : catalog.find? name = none := by
        simpa [lookUp, contains_eq_isSome_find?] using hunknown
      simp only [lookUp, get, hentry]
    · exact answer_of_returned hreturned

/-- A unit that is there is found, and its factory, if it has one, is not asked. -/
theorem lookUp_of_settled (h : catalog.Settled name unit) :
    (catalog.lookUp name).returned = none ∧ (catalog.lookUp name).answer = .ok (some unit) := by
  refine ⟨?_, by simp only [lookUp, get_of_settled h]⟩
  obtain ⟨entry, hentry, hunit⟩ := h
  simp only [lookUp, hentry, Option.bind_some]
  unfold UnitEntry.returned
  split
  · rename_i hsource
    simp [UnitEntry.unit?, hsource] at hunit
  · rfl
  · rfl

/-- A unit that a factory returned is there afterwards. -/
theorem settled_of_returned (h : (catalog.lookUp name).returned = some (some unit)) :
    (catalog.get name).2.Settled name unit :=
  settled_of_get (Prod.ext (answer_of_returned h) rfl)

theorem Settled.append (h : catalog.Settled name unit) {entries : List UnitEntry}
    (hentries : catalog'.entries = catalog.entries ++ entries) : catalog'.Settled name unit := by
  obtain ⟨entry, hentry, hunit⟩ := h
  refine ⟨entry, ?_, hunit⟩
  rw [find?, hentries, List.find?_append, ← find?, hentry, Option.some_or]

/-- A unit that is there stays there when another one is registered. -/
theorem Settled.add (h : catalog.Settled name unit) (entry : UnitEntry) :
    (catalog.orUnchanged (catalog.add entry)).2.Settled name unit := by
  unfold Catalog.add
  split
  · exact h
  · exact h.append rfl

theorem Settled.register (h : catalog.Settled name unit) {new : StepUnit}
    {version description : String} {tags : List String} :
    (catalog.orUnchanged (catalog.register other new version description tags)).2.Settled
      name unit := by
  unfold Catalog.register
  split
  · exact h
  · exact h.add _

theorem Settled.addBuiltin (h : catalog.Settled name unit) (new : StepUnit) (description : String) :
    (catalog.addBuiltin new description).Settled name unit := by
  unfold Catalog.addBuiltin
  split
  · exact h
  · exact h.append rfl

theorem Settled.remove (h : catalog.Settled name unit) (hne : other ≠ name) :
    (catalog.remove other).2.Settled name unit := by
  unfold Catalog.remove
  split
  · obtain ⟨entry, hentry, hunit⟩ := h
    refine ⟨entry, ?_, hunit⟩
    rw [← hentry, find?, find?, List.find?_filter]
    congr 1
    funext entry
    by_cases hname : entry.name = name
    · simp [hname, hne.symm]
    · simp [hname]
  · exact h

/-- **A unit that is there stays there** until it is removed. -/
theorem Settled.perform (h : catalog.Settled name unit) (hkept : call.removes name = false) :
    (catalog.perform call).2.Settled name unit := by
  cases call with
  | register | addFunction => exact h.register
  | addFactory => exact h.add _
  | remove other => exact h.remove (by simpa [CatalogCall.removes] using hkept)
  | get other => exact h.get
  | clear => simp [CatalogCall.removes] at hkept
  | addBuiltins => exact (h.addBuiltin _ _).addBuiltin _ _

/-- A unit that is there is found by all look-ups until it is removed. -/
theorem lookUps_of_settled (h : catalog.Settled name unit)
    (hkept : ∀ call ∈ calls, call.removes name = false) :
    ∀ l ∈ catalog.lookUps calls, l.name = name → l.returned = none ∧
      l.answer = .ok (some unit) := by
  induction calls generalizing catalog with
  | nil => simp [lookUps]
  | cons call rest ih =>
    obtain ⟨hcall, hrest⟩ := List.forall_mem_cons.mp hkept
    intro l hl hname
    rcases List.mem_append.mp hl with hfirst | hlater
    · obtain ⟨looked, -, rfl⟩ := Option.map_eq_some_iff.mp (Option.mem_toList.mp hfirst)
      obtain rfl : looked = name := hname
      exact lookUp_of_settled h
    · exact ih (h.perform hcall) hrest l hlater hname

/-- **A factory returns at most once** before its name is removed, unless it returns nothing. -/
theorem returnsOnce_lookUps (hkept : ∀ call ∈ calls, call.removes name = false)
    (hunit : ∀ l ∈ catalog.lookUps calls, l.returned ≠ some none) :
    ReturnsOnce ((catalog.lookUps calls).filter (·.name == name)) := by
  induction calls generalizing catalog with
  | nil => exact ⟨by simp [lookUps], by simp [lookUps]⟩
  | cons call rest ih =>
    obtain ⟨-, hrestKept⟩ := List.forall_mem_cons.mp hkept
    have hrest := ih hrestKept fun l hl => hunit l (List.mem_append_right _ hl)
    rw [lookUps, List.filter_append]
    cases hlooked : call.lookedUp? with
    | none => simpa using hrest
    | some looked =>
      by_cases hname : looked = name
      · subst hname
        have hself : (catalog.lookUp looked).name = looked := rfl
        rw [Option.map_some, Option.toList_some, List.filter_singleton, hself, beq_self_eq_true]
        cases hreturned : (catalog.lookUp looked).returned with
        | none => exact hrest.cons_of_none hreturned
        | some made =>
          cases made with
          | none =>
            refine absurd hreturned (hunit _ (List.mem_append_left _ ?_))
            simp [hlooked]
          | some unit =>
            -- From now on the unit is there, and the others find it.
            have hcall : (catalog.perform call).2.Settled looked unit := by
              cases call with
              | get name =>
                obtain rfl := Option.some.inj hlooked
                exact settled_of_returned hreturned
              | register | addFunction | addFactory | remove | clear | addBuiltins => cases hlooked
            apply ReturnsOnce.cons_of_found hreturned
            intro later hlater
            obtain ⟨hmem, hsame⟩ := List.mem_filter.mp hlater
            exact lookUps_of_settled hcall hrestKept later hmem (by simpa using hsame)
      · have hother : ((catalog.lookUp looked).name == name) = false := by
          simpa [lookUp] using hname
        simpa [hother] using hrest

end Catalog

end Switchyard
