import Switchyard.Proofs.Binding.Agreement
import Switchyard.Proofs.Failure.Telling

/-!
# Failures that tell the same

An error can hold data, and so can the failure that it is told as. Errors that say the same, up to
where their data is kept, are told as failures that say the same, whichever index the step has; or
what escapes instead is the same.

Main statement: `failureAt_agrees`.
-/

namespace Switchyard

variable {r : Nat → Nat → Prop}

/-- **Errors that say the same**: faults of one kind with the same message and details,
or one other error. -/
inductive Raised.Matches (r : Nat → Nat → Prop) : Raised → Raised → Prop
  | fault {f g : Fault} : f.kind = g.kind → f.message.Matches r g.message →
      f.details.Correspond (Value.Matches r) g.details → Matches r (.fault f) (.fault g)
  | other {e : Raised} : (∀ f, e ≠ .fault f) → Matches r e e

/-- **Failures that tell the same**, but for the index of the step. -/
structure Failure.Matches (r : Nat → Nat → Prop) (failure failure' : Failure) : Prop where
  kind : failure.kind = failure'.kind
  message : failure.message = failure'.message
  stepName : failure.stepName = failure'.stepName
  details : failure.details.Correspond (Value.Matches r) failure'.details

/-- Whatever an evaluation fails with says the same as itself. -/
theorem Raised.matches_of_evalProblem (problem : Expression.EvalProblem) :
    problem.raised.Matches r problem.raised := by
  have hself : ∀ {es : Entries}, (∀ entry ∈ es, ∃ s, entry.2 = .atom s) →
      es.Correspond (Value.Matches r) es := by
    intro es hes
    refine List.forall₂_same.mpr fun entry hentry => ⟨rfl, ?_⟩
    obtain ⟨s, hs⟩ := hes entry hentry
    rw [hs]
    exact .atom s
  cases problem with
  | missing walked segment reason => exact .fault rfl (.atom _) (hself (by simp [Fault.details]))
  | mismatch left right => exact .fault rfl (.atom _) (hself (by simp [Fault.details]))
  | beforeFront | tooLarge | alien _ => exact .other (by simp [Expression.EvalProblem.raised])

namespace Form

/-- The same data is the same text, or none for the same reason. -/
theorem text_eq {v w : Value} (h : v.Matches r w) : Form.text v = Form.text w := by
  cases h <;> rfl

/-- Keys that are the same pass the check of text keys together. -/
theorem textKeys_agrees {es fs : Entries} (h : es.Correspond (Value.Matches r) fs) :
    Agree (Entries.Correspond (Value.Matches r)) (textKeys es) (textKeys fs) := by
  induction h with
  | nil => exact .ok .nil
  | @cons p q es fs hpq _ ih =>
    obtain ⟨k, v⟩ := p
    obtain ⟨k', w⟩ := q
    obtain ⟨rfl, hvw⟩ := hpq
    -- The check of the first key is the same, and the check of the others is by induction.
    simp only [textKeys]
    generalize textKeys es = checked at ih
    generalize textKeys fs = checked' at ih
    cases key k with
    | ok s =>
      cases ih with
      | ok hrest => exact .ok (.cons ⟨rfl, hvw⟩ hrest)
      | error issues => exact .error _
    | error issues =>
      cases ih with
      | ok hrest => exact .error _
      | error more => exact .error _

theorem dictionary_agrees {es fs : Entries} (h : es.Correspond (Value.Matches r) fs) :
    Agree (Entries.Correspond (Value.Matches r)) (dictionary (.map es)) (dictionary (.map fs)) := by
  have hkeys := textKeys_agrees h
  simp only [dictionary]
  generalize textKeys es = checked at hkeys
  generalize textKeys fs = checked' at hkeys
  cases hkeys with
  | ok hentries => exact .ok hentries.ofPairs
  | error issues => exact .error _

end Form

namespace Engine

variable {step : Step} {e e' : Raised}

/-- **Errors that say the same** are told as failures that tell the same, each with the index of its
step; or the same escapes instead. -/
theorem failureAt_agrees (h : e.Matches r e') (step : Step) (i j : Nat) :
    Agree (fun failure failure' => Failure.Matches r failure failure' ∧
      failure.stepIndex = some (i : Int) ∧
      failure'.stepIndex = some (j : Int)) (failureAt step i e) (failureAt step j e') := by
  cases h with
  | @fault f g hkind hmessage hdetails =>
    have hchecked := Form.dictionary_agrees hdetails
    simp only [failureAt, Raised.passedOn_fault, Failure.atStep_eq, hkind, Form.text_eq hmessage]
    generalize Form.dictionary (.map f.details) = checked at hchecked
    generalize Form.dictionary (.map g.details) = checked' at hchecked
    cases Form.text g.message with
    | ok s =>
      cases hchecked with
      | ok hentries => exact .ok ⟨⟨rfl, rfl, rfl, hentries⟩, rfl, rfl⟩
      | error issues => exact .error _
    | error issues =>
      cases hchecked with
      | ok hentries => exact .error _
      | error more => exact .error _
  | other hfault =>
    by_cases hgone : e = .abandoned
    · subst hgone
      exact .error _
    · rw [failureAt_of_not_fault hfault hgone, failureAt_of_not_fault hfault hgone]
      exact .ok ⟨⟨rfl, rfl, rfl, .cons ⟨rfl, .atom _⟩ .nil⟩, rfl, rfl⟩

end Engine

end Switchyard
