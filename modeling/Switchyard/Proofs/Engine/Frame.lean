import Switchyard.Engine

/-!
# What a step comes to

The engine tells the hooks what happens. Whatever the hooks are and however they fail, that reaches
neither the surroundings of the units nor what is on the trail already: it only adds to the trail.
An output is recorded without fail if its step has none yet.

Main statements: a step comes to its bindings that fail to resolve (`runStep_unresolved`) or to the
call of its unit and what that answers (`runStep_resolved`).
-/

namespace Switchyard

namespace World

variable {w : World} {hooks : Hooks} {number : Nat}

/-! ## §1 Surroundings -/

@[simp] theorem audit_surroundings {call : AuditCall} :
    (w.audit hooks number call).surroundings = w.surroundings := by
  unfold audit
  split <;> rfl

@[simp] theorem measure_surroundings {sample : Sample} :
    (w.measure hooks number sample).surroundings = w.surroundings := by
  unfold measure
  split <;> rfl

@[simp] theorem audit_store {call : AuditCall} : (w.audit hooks number call).store = w.store :=
  congrArg Surroundings.store audit_surroundings

@[simp] theorem withStore_surroundings {σ : Store} :
    (w.withStore σ).surroundings = { w.surroundings with store := σ } := rfl

/-! ## §2 The trail -/

/-- **Only these calls were added**: the second trail is the first one with more calls, each of the
given number and of the given sort. -/
def Adds (number : Nat) (sort : HookCall → Prop) (w w' : World) : Prop :=
  ∃ calls : List HookCall, w'.trail = w.trail ++ calls.map (number, ·) ∧ ∀ call ∈ calls, sort call

namespace Adds

variable {sort : HookCall → Prop} {w' w'' : World}

theorem refl (w : World) : Adds number sort w w := ⟨[], by simp, by simp⟩

theorem trans (h : Adds number sort w w') (h' : Adds number sort w' w'') :
    Adds number sort w w'' := by
  obtain ⟨calls, htrail, hsort⟩ := h
  obtain ⟨more, htrail', hsort'⟩ := h'
  refine ⟨calls ++ more, ?_, ?_⟩
  · rw [htrail', htrail, List.map_append, List.append_assoc]
  · intro call hcall
    rcases List.mem_append.mp hcall with hmem | hmem
    · exact hsort call hmem
    · exact hsort' call hmem

end Adds

variable {sort : HookCall → Prop}

theorem adds_audit {call : AuditCall} (h : sort (.audit call)) :
    Adds number sort w (w.audit hooks number call) := by
  unfold audit
  split
  · exact .refl w
  · exact ⟨[.audit call], rfl, by simpa using h⟩

theorem adds_measure {sample : Sample} (h : sort (.metric sample)) :
    Adds number sort w (w.measure hooks number sample) := by
  unfold measure
  split
  · exact .refl w
  · exact ⟨[.metric sample], rfl, by simpa using h⟩

end World

/-! ## §3 Reports of steps -/

namespace Engine

variable {engine : Engine} {number index outputs : Nat} {step : Step}
  {failure : Failure} {w : World}

@[simp] theorem reportFailure_surroundings :
    (engine.reportFailure number step index failure w).surroundings = w.surroundings := by
  simp [reportFailure]

@[simp] theorem reportEnd_surroundings :
    (engine.reportEnd number step outputs w).surroundings = w.surroundings := by
  simp [reportEnd]

end Engine

/-! ## §4 Outputs -/

namespace Outputs

variable {outputs : Outputs} {name : String}

/-- Whether a step has an output can be told from the names. -/
theorem contains_iff : outputs.contains name = true ↔ name ∈ outputs.names := by
  simp [contains, names]

/-- An output is recorded behind the others if its step has none yet. -/
theorem record_of_new (h : name ∉ outputs.names) (value : Value) :
    outputs.record name value = .ok (outputs ++ [(name, value)]) := by
  rw [← contains_iff, Bool.not_eq_true] at h
  rw [record, h]
  rfl

/-- The output of a step that has one can be looked up. -/
theorem exists_find? (h : name ∈ outputs.names) :
    ∃ value, (name, value) ∈ outputs ∧ outputs.find? name = some value := by
  -- The name is that of some output, so the search for it finds one, which has the same name.
  obtain ⟨entry, hmem, hname⟩ := List.mem_map.mp h
  obtain ⟨found, hfound⟩ := Option.isSome_iff_exists.mp
    (List.find?_isSome.mpr ⟨entry, hmem, beq_iff_eq.mpr hname⟩ :
      (List.find? (·.1 == name) outputs).isSome)
  have hsame : found.1 = name := by simpa using List.find?_some hfound
  refine ⟨found.2, ?_, by rw [find?, hfound]; rfl⟩
  rw [← hsame]
  exact List.mem_of_find?_eq_some hfound

end Outputs

/-- A scope records an output without fail if its step has none yet. -/
theorem Scope.record_of_new {scope : Scope} {name : String} (h : name ∉ scope.outputs.names)
    (value : Value) (σ : Store) :
    ∃ scope' τ, scope.record name value σ = .ok (scope', τ) ∧
      scope'.outputs = scope.outputs ++ [(name, value)] := by
  simp only [record, Outputs.record_of_new h value]
  exact ⟨_, _, rfl, rfl⟩

/-! ## §5 Steps -/

namespace Engine

variable {engine : Engine} {number index : Nat} {step : Step} {w : World}

/-- The world after the hooks were told that a step begins. -/
def announce (engine : Engine) (number : Nat) (step : Step) (index : Nat) (w : World) : World :=
  w.audit engine.hooks number (.stepStarted step.name index [(.text "uses", .text step.uses)])

@[simp] theorem announce_surroundings :
    (engine.announce number step index w).surroundings = w.surroundings :=
  World.audit_surroundings

@[simp] theorem announce_store : (engine.announce number step index w).store = w.store :=
  World.audit_store

/-- Ends a step with what its unit answered. -/
def endWith (engine : Engine) (number : Nat) (step : Step) (index : Nat)
    (scope : Scope) (w : World) : Except Raised Value → Activity World StepEnd
  | .error e => engine.endWithError number step index e w
  | .ok output => engine.endWithOutput number step scope output w

variable {invocation : Invocation} {scope : Scope}

/-- A step whose bindings fail to resolve ends with that. -/
theorem runStep_unresolved {problem : Expression.EvalProblem}
    (h : Binding.resolveRecord scope.context step.bindings w.store = .error problem) :
    engine.runStep invocation step index scope w =
      engine.endWithError invocation.number step index problem.raised
        (engine.announce invocation.number step index w) := by
  -- What the hooks were told has not touched the store that the bindings are resolved in.
  have hannounce : (engine.announce invocation.number step index w).store = w.store :=
    announce_store
  rw [← hannounce] at h
  unfold announce at h
  simp only [runStep, h, announce]

/-- A step whose bindings resolve calls its unit and ends with the answer. -/
theorem runStep_resolved {config : Value} {σ : Store}
    (h : Binding.resolveRecord scope.context step.bindings w.store = .ok (config, σ)) :
    engine.runStep invocation step index scope w =
      (World.act (engine.work step config (.invocation scope invocation.signal))
        ((engine.announce invocation.number step index w).withStore σ)).bind fun w answer =>
          engine.endWith invocation.number step index scope w answer := by
  -- As before, the bindings are resolved in the store that was there.
  have hannounce : (engine.announce invocation.number step index w).store = w.store :=
    announce_store
  rw [← hannounce] at h
  unfold announce at h
  simp only [runStep, h, announce]
  rfl

end Engine

end Switchyard
