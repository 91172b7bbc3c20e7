import Switchyard.Engine
import Switchyard.Proofs.Value.Record

/-!
# Which errors can be told

A step that fails is told to the caller as a failure, and a failure is itself checked when it is
made. So an error that a unit raises on purpose can be told only if its message is a text and the
keys of its details are texts; bytes that spell a text count as one. Every other error is told by
its words and the name of its class, except that the caller is gone: that escapes. The coroutine in
which the unit is called passes a `StopIteration` on as a `RuntimeError`, and it is told as that.

Main statements: an error becomes a failure exactly if it can be told (`failureAt_ok_iff`), what
escapes otherwise (`failureAt_error`), and what the failure says (`failureAt_of_plain`).
-/

namespace Switchyard

/-! ## §1 Errors that can be told -/

/-- A scalar that counts as a text: a text, or bytes that spell one. -/
inductive Scalar.Textual : Scalar → Prop
  | text (s : String) : Textual (.text s)
  | bytes {b : List UInt8} {s : String} : String.fromUTF8? ⟨b.toArray⟩ = some s → Textual (.bytes b)

/-- A fault that a failure can be made of. -/
structure Fault.Tellable (f : Fault) : Prop where
  message : ∃ k : Scalar, f.message = .atom k ∧ k.Textual
  details : ∀ entry ∈ f.details, entry.1.Textual

/-- **An error that can be told** to the caller of a step: a fault of the right form, or any other
error but that the caller is gone. -/
def Raised.Tellable : Raised → Prop
  | .fault f => f.Tellable
  | .abandoned => False
  | .rejected _ | .refused _ _ | .broken _ _ => True

/-- A fault whose message is a text and whose details are a record. -/
structure Fault.Plain (f : Fault) : Prop where
  message : ∃ s : String, f.message = .text s
  details : f.details.IsRecord

/-- An error that says what it says in plain data, and is not that the caller is gone. -/
def Raised.Plain : Raised → Prop
  | .fault f => f.Plain
  | .abandoned => False
  | .rejected _ | .refused _ _ | .broken _ _ => True

/-- The kind that an error is told under: a fault's own, else that of a failing step. -/
def Raised.toldKind : Raised → FailureKind
  | .fault f => f.kind
  | _ => .stepFailure

/-- What is told of an error: a fault's own message, else its text, or the name of its
class if it has none. -/
def Raised.toldMessage : Raised → Value
  | .fault f => f.message
  | e => .text (if e.text = "" then e.className else e.text)

/-- The details that an error is told with: a fault's own, else the name of its class. -/
def Raised.toldDetails : Raised → Entries
  | .fault f => f.details
  | e => [(.text "exception_class", .text e.className)]

/-- **What a failure tells** of an error of a step: which step it was, and the error's kind,
message and details. -/
structure Failure.Tells (failure : Failure) (step : Step) (index : Nat) (e : Raised) : Prop where
  stepName : failure.stepName = some step.name
  stepIndex : failure.stepIndex = some (index : Int)
  kind : failure.kind = e.toldKind
  message : .text failure.message = e.toldMessage
  details : failure.details = e.toldDetails

/-! ## §2 The check of a failure -/

namespace Form

/-- The form of a text takes exactly the textual scalars. -/
theorem text_ok_iff {v : Value} :
    (∃ s, Form.text v = .ok s) ↔ ∃ k : Scalar, v = .atom k ∧ k.Textual := by
  constructor
  · rintro ⟨s, h⟩
    unfold Form.text at h
    -- Only a text, or bytes that are read as one, get past the form.
    split at h
    · exact ⟨_, rfl, .text _⟩
    · split at h
      · exact ⟨_, rfl, .bytes ‹_›⟩
      · cases h
    · cases h
  · rintro ⟨k, rfl, hk⟩
    cases hk with
    | text s => exact ⟨s, rfl⟩
    | bytes hb => exact ⟨_, by simp only [Form.text, hb]; rfl⟩

/-- The form of a key takes exactly the textual scalars. -/
theorem key_ok_iff {k : Scalar} : (∃ s, Form.key k = .ok s) ↔ k.Textual := by
  -- A key has the form of a text, up to what it is turned into.
  have htext : (∃ s, Form.key k = .ok s) ↔ ∃ s, Form.text (.atom k) = .ok s := by
    unfold Form.key
    cases Form.text (.atom k) <;> simp
  rw [htext, text_ok_iff]
  simp

/-- Keys pass the check of text keys exactly if each is textual. -/
theorem textKeys_ok_iff {entries : List (Scalar × Value)} :
    (∃ es, textKeys entries = .ok es) ↔ ∀ entry ∈ entries, entry.1.Textual := by
  induction entries with
  | nil => simp [textKeys]
  | cons entry rest ih =>
    obtain ⟨k, v⟩ := entry
    rw [List.forall_mem_cons, ← ih, ← key_ok_iff (k := k)]
    -- The check of the first key and the check of the others are joined: both have to pass.
    simp only [textKeys]
    cases Form.key k <;> cases textKeys rest <;> simp [Checked.join, Except.map]

end Form

namespace Failure

variable {kind : FailureKind} {message : Value} {name : String} {index : Nat} {details : Entries}

/-- What the check of a failure of a step comes to: only the message and the
details can be wrong. -/
theorem atStep_eq :
    Failure.atStep kind message name index details =
      Checked.join (Checked.join (.ok fun m d => ⟨kind, m, some name, some (index : Int), d⟩)
        (Checked.within (.field "message") (Form.text message)))
        (Checked.within (.field "details") (Form.dictionary (.map details))) := by
  unfold Failure.atStep Failure.check
  cases Form.text message <;> cases Form.dictionary (.map details) <;> rfl

/-- A failure of a step can be made exactly of a textual message and textual keys. -/
theorem atStep_ok_iff :
    (∃ failure, Failure.atStep kind message name index details = .ok failure) ↔
      (∃ k : Scalar, message = .atom k ∧ k.Textual) ∧ ∀ entry ∈ details, entry.1.Textual := by
  -- The name and the index of a step always pass, so two checks are left.
  rw [atStep_eq, ← Form.text_ok_iff, ← Form.textKeys_ok_iff, Form.dictionary]
  cases Form.text message <;> cases Form.textKeys details <;>
    simp [Checked.join, Checked.within, Except.map]

/-- A failure of a step made of plain data holds them as they are. -/
theorem atStep_of_isRecord (text : String) (h : details.IsRecord) :
    Failure.atStep kind (.text text) name index details =
      .ok ⟨kind, text, some name, some (index : Int), details⟩ := by
  rw [atStep_eq, Form.dictionary_of_isRecord h]
  rfl

end Failure

/-! ## §3 What a coroutine passes on -/

namespace Raised

variable {e : Raised}

/-- A fault is passed on as it is, since none is a `StopIteration`. -/
@[simp] theorem passedOn_fault (f : Fault) : (Raised.fault f).passedOn = .fault f := by
  cases f <;> rfl

theorem passedOn_eq_fault_iff {f : Fault} : e.passedOn = .fault f ↔ e = .fault f := by
  constructor
  · intro h
    unfold passedOn at h
    split at h
    · cases h
    · exact h
  · rintro rfl
    exact passedOn_fault f

theorem passedOn_eq_abandoned_iff : e.passedOn = .abandoned ↔ e = .abandoned := by
  constructor
  · intro h
    unfold passedOn at h
    split at h
    · cases h
    · exact h
  · rintro rfl
    rfl

/-- Whatever an evaluation fails with is passed on as it is. -/
@[simp] theorem passedOn_evalProblem (p : Expression.EvalProblem) :
    p.raised.passedOn = p.raised := by
  cases p <;> rfl

/-! ## §4 What a step's error amounts to -/

/-- Whatever an evaluation fails with is plain. -/
theorem plain_of_evalProblem (p : Expression.EvalProblem) : p.raised.Plain := by
  cases p with
  | missing walked segment reason =>
    exact ⟨⟨_, rfl⟩, [("path", _), ("segment", _)], by simp, rfl⟩
  | mismatch left right =>
    exact ⟨⟨_, rfl⟩, [("operator", _), ("left", _), ("right", _)], by simp, rfl⟩
  -- The others are no faults: they are told by their class.
  | beforeFront | tooLarge | alien _ => trivial

end Raised

namespace Engine

variable {step : Step} {index : Nat} {e : Raised}

/-- An error that is no fault is told by the words and the class of what is passed on of it. -/
theorem failureAt_of_not_fault (hfault : ∀ f, e ≠ .fault f) (hgone : e ≠ .abandoned) :
    failureAt step index e =
      .ok ⟨.stepFailure, e.passedOn.words, some step.name, some (index : Int),
        [(.text "exception_class", .text e.passedOn.className)]⟩ := by
  unfold failureAt
  cases hpassed : e.passedOn with
  | fault f => exact absurd (Raised.passedOn_eq_fault_iff.mp hpassed) (hfault f)
  | abandoned => exact absurd (Raised.passedOn_eq_abandoned_iff.mp hpassed) hgone
  | rejected _ | refused _ _ | broken _ _ => rfl

/-- **An error becomes a failure** exactly if it can be told. -/
theorem failureAt_ok_iff : (∃ failure, failureAt step index e = .ok failure) ↔ e.Tellable := by
  cases e with
  | fault f =>
    -- Raising what is wrong with the failure does not change whether anything is.
    have hraise : (∃ failure, failureAt step index (.fault f) = .ok failure) ↔
        ∃ failure, Failure.atStep f.kind f.message step.name index f.details = .ok failure := by
      simp only [failureAt, Raised.passedOn_fault, Checked.raise]
      cases Failure.atStep f.kind f.message step.name index f.details <;> simp
    rw [hraise, Failure.atStep_ok_iff]
    exact ⟨fun h => ⟨h.1, h.2⟩, fun h => ⟨h.message, h.details⟩⟩
  | abandoned =>
    refine iff_of_false ?_ id
    rintro ⟨failure, h⟩
    cases h
  | rejected _ | refused _ _ | broken _ _ =>
    exact iff_of_true ⟨_, failureAt_of_not_fault (by simp) (by simp)⟩ trivial

/-- What escapes instead of a failure: that the caller is gone, or all that is
wrong with the failure. -/
theorem failureAt_error {e' : Raised} (h : failureAt step index e = .error e') :
    e' = .abandoned ∨ ∃ issues, e' = .rejected issues := by
  unfold failureAt at h
  split at h
  · exact .inl (by cases h; rfl)
  -- Otherwise a failure was checked and did not pass.
  all_goals
    unfold Checked.raise at h
    split at h
    · cases h
    · exact .inr ⟨_, by cases h; rfl⟩

/-- That the caller is gone escapes only if just that was raised. -/
theorem failureAt_abandoned_iff : failureAt step index e = .error .abandoned ↔ e = .abandoned := by
  constructor
  · intro h
    unfold failureAt at h
    split at h
    · rename_i hpassed
      exact Raised.passedOn_eq_abandoned_iff.mp hpassed
    all_goals
      unfold Checked.raise at h
      split at h <;> cases h
  · rintro rfl
    rfl

/-- **What a step's error is told as**, if it is plain: as what is passed on of it. -/
theorem failureAt_of_plain (h : e.Plain) (step : Step) (index : Nat) :
    ∃ failure, failureAt step index e = .ok failure ∧ failure.Tells step index e.passedOn := by
  cases e with
  | fault f =>
    obtain ⟨⟨s, hs⟩, hrecord⟩ := h
    -- Plain data passes the check as it is, so the failure says just what the fault said.
    have hcheck : Failure.atStep f.kind (.text s) step.name index f.details =
        .ok ⟨f.kind, s, some step.name, some (index : Int), f.details⟩ :=
          Failure.atStep_of_isRecord s hrecord
    rw [Raised.passedOn_fault]
    refine ⟨⟨f.kind, s, some step.name, some (index : Int), f.details⟩, ?_,
      ⟨rfl, rfl, rfl, hs.symm, rfl⟩⟩
    simp only [failureAt, Raised.passedOn_fault, hs, hcheck]
    rfl
  | abandoned => exact absurd h id
  | rejected _ | refused _ _ | broken _ _ =>
    refine ⟨_, failureAt_of_not_fault (by simp) (by simp), rfl, rfl, ?_, ?_, ?_⟩
    -- What is passed on of such an error is no fault either.
    all_goals
      unfold Raised.passedOn
      split <;> rfl

/-- A unit that raises `StopIteration` is told of as one that raised a `RuntimeError`. -/
example (text : String) :
    failureAt step index (.broken "StopIteration" text) =
      .ok ⟨.stepFailure, "coroutine raised StopIteration", some step.name, some (index : Int),
        [(.text "exception_class", .text "RuntimeError")]⟩ := rfl

end Engine

end Switchyard
