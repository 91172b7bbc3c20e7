import Mathlib.Data.List.Basic
import Switchyard.Units.Function

/-!
# Arguments of functions

A function that serves as a unit is called with the configuration and its caller, or with the
configuration alone. Which of the two it is called with is decided by counting the parameters
that can take an argument by place. Whether the call goes through is decided by binding the
arguments to the parameters. This fails for two reasons: an argument is left over, or a parameter
stays without one and has no value of its own. The count only knows of the first. But a second
argument leaves no more parameters without one than the first did, so where the first argument
binds alone, the count decides.

Main statements: when arguments bind (`binds_iff`), and that a function is called with both
arguments if these bind, and else with the configuration alone if this does
(`Function.called_with_what_binds`).
-/

namespace Switchyard

variable {p : Parameter} {parameters : List Parameter} {args : List Value} {v : Value} {count : Nat}

/-! ## §1 Binding -/

/-- **Arguments bind** to parameters if they can be passed to them by place. -/
def Binds (parameters : List Parameter) (args : List Value) : Prop :=
  (bindArguments parameters args).isSome

instance : Decidable (Binds parameters args) :=
  inferInstanceAs (Decidable ((bindArguments parameters args).isSome = true))

theorem binds_nil : Binds [] args ↔ args = [] := by
  cases args <;> simp [Binds, bindArguments]

theorem Parameter.kind_ne_rest (hp : p.isPositional = true) : p.kind ≠ .rest := by
  intro hkind
  simp [Parameter.isPositional, hkind] at hp

/-- A parameter that takes all further arguments leaves none. -/
theorem binds_rest (hkind : p.kind = .rest) : Binds (p :: parameters) args ↔
    Binds parameters [] := by
  simp [Binds, bindArguments, hkind]

/-- A parameter that can take an argument by place takes the first one. -/
theorem binds_filled (hp : p.isPositional = true) :
    Binds (p :: parameters) (v :: args) ↔ Binds parameters args := by
  simp [Binds, bindArguments, Parameter.kind_ne_rest hp, hp]

/-- A parameter that takes none, because it comes by name only or because there is none, needs
a value of its own. -/
theorem binds_unfilled (hkind : p.kind ≠ .rest) (hp : p.isPositional = false ∨ args = []) :
    Binds (p :: parameters) args ↔ p.unfilled.isSome ∧ Binds parameters args := by
  have hbind : bindArguments (p :: parameters) args =
      p.unfilled.bind fun d => (bindArguments parameters args).map ((p.name, d) :: ·) := by
    cases args with
    | nil => simp [bindArguments, hkind]
    | cons v args =>
      have hplaced : p.isPositional = false := hp.resolve_right (List.cons_ne_nil v args)
      simp [bindArguments, hkind, hplaced]
  rw [Binds, hbind]
  cases p.unfilled <;> simp [Binds]

/-! ## §2 Room for arguments -/

/-- The parameters that can take an argument by place. -/
def positional (parameters : List Parameter) : List Parameter := parameters.filter (·.isPositional)

/-- **Room for arguments**: a parameter for each of them, or one that takes all that are left. -/
def HasRoom (parameters : List Parameter) (count : Nat) : Prop :=
  (∃ p ∈ parameters, p.kind = .rest) ∨ count ≤ (positional parameters).length

theorem hasRoom_rest (hkind : p.kind = .rest) : HasRoom (p :: parameters) count :=
  .inl ⟨p, List.mem_cons_self .., hkind⟩

theorem hasRoom_filled (hp : p.isPositional = true) :
    HasRoom (p :: parameters) (count + 1) ↔ HasRoom parameters count := by
  simp [HasRoom, positional, hp, Parameter.kind_ne_rest hp]

theorem hasRoom_unfilled (hkind : p.kind ≠ .rest) (hp : p.isPositional = false ∨ count = 0) :
    HasRoom (p :: parameters) count ↔ HasRoom parameters count := by
  rcases hp with hplaced | rfl
  · simp [HasRoom, positional, hkind, hplaced]
  · simp [HasRoom]

/-- **A function is called with its caller** exactly if there is room for two arguments. -/
theorem Function.takesCaller_iff {f : Function} (hknown : f.parameters = some parameters) :
    f.takesCaller = true ↔ HasRoom parameters 2 := by
  simp [Function.takesCaller, hknown, HasRoom, positional]

/-! ## §3 Parameters without an argument -/

/-- **The parameters that stay without an argument** if so many come by place. -/
def withoutArgument : List Parameter → Nat → List Parameter
  | [], _ => []
  | p :: parameters, count =>
    if p.kind = .rest then withoutArgument parameters 0
    else match count with
      | n + 1 =>
        if p.isPositional then withoutArgument parameters n
        else p :: withoutArgument parameters (n + 1)
      | 0 => p :: withoutArgument parameters 0

theorem withoutArgument_rest (hkind : p.kind = .rest) :
    withoutArgument (p :: parameters) count = withoutArgument parameters 0 := by
  simp [withoutArgument, hkind]

theorem withoutArgument_filled (hp : p.isPositional = true) :
    withoutArgument (p :: parameters) (count + 1) = withoutArgument parameters count := by
  simp [withoutArgument, Parameter.kind_ne_rest hp, hp]

theorem withoutArgument_unfilled (hkind : p.kind ≠ .rest)
    (hp : p.isPositional = false ∨ count = 0) :
    withoutArgument (p :: parameters) count = p :: withoutArgument parameters count := by
  rcases hp with hplaced | rfl
  · cases count <;> simp [withoutArgument, hkind, hplaced]
  · simp [withoutArgument, hkind]

/-- **When arguments bind**: there is room for them, and the parameters that stay without one have
values of their own. -/
theorem binds_iff : Binds parameters args ↔
    HasRoom parameters args.length ∧ ∀ p ∈ withoutArgument parameters args.length,
      p.unfilled.isSome := by
  induction parameters generalizing args with
  | nil => simp [binds_nil, HasRoom, positional, withoutArgument]
  | cons p parameters ih =>
    by_cases hkind : p.kind = .rest
    · have hroom : HasRoom parameters 0 := .inr (Nat.zero_le _)
      rw [binds_rest hkind, ih, withoutArgument_rest hkind, List.length_nil]
      simp only [hroom, hasRoom_rest hkind]
    · have hunfilled (hp : p.isPositional = false ∨ args = []) : Binds (p :: parameters) args ↔
          HasRoom (p :: parameters) args.length ∧
            ∀ q ∈ withoutArgument (p :: parameters) args.length, q.unfilled.isSome := by
        have hcount : p.isPositional = false ∨ args.length = 0 :=
          hp.imp_right List.length_eq_zero_iff.mpr
        rw [binds_unfilled hkind hp, ih, hasRoom_unfilled hkind hcount,
          withoutArgument_unfilled hkind hcount, List.forall_mem_cons]
        exact and_left_comm
      cases args with
      | nil => exact hunfilled (.inr rfl)
      | cons v args =>
        cases hp : p.isPositional with
        | false => exact hunfilled (.inl hp)
        | true =>
          rw [binds_filled hp, ih, List.length_cons, hasRoom_filled hp, withoutArgument_filled hp]

/-- A further argument leaves no more parameters without one. -/
theorem withoutArgument_succ_sublist (parameters : List Parameter) (count : Nat) :
    (withoutArgument parameters (count + 1)).Sublist (withoutArgument parameters count) := by
  induction parameters generalizing count with
  | nil => exact .slnil
  | cons p parameters ih =>
    by_cases hkind : p.kind = .rest
    · rw [withoutArgument_rest hkind, withoutArgument_rest hkind]
    cases hp : p.isPositional with
    | false =>
      rw [withoutArgument_unfilled hkind (.inl hp), withoutArgument_unfilled hkind (.inl hp)]
      exact (ih count).cons_cons p
    | true =>
      rw [withoutArgument_filled hp]
      cases count with
      | zero =>
        rw [withoutArgument_unfilled hkind (.inr rfl)]
        exact List.sublist_cons_self ..
      | succ n =>
        rw [withoutArgument_filled hp]
        exact ih n

/-! ## §4 Calls -/

namespace Function

variable {f : Function}

/-- The unit of a function answers with its result if the arguments that it is called with bind. -/
theorem toUnit_answers (hknown : f.parameters = some parameters) (name : String) {config : Value}
    {caller : Caller} {bound : List (String × Value)}
    (hbound : bindArguments parameters (f.arguments config caller) = some bound) :
    (f.toUnit name).behaviour.map (fun call => call config caller) =
      some (Call.answer (f.result bound)) := by
  simp only [toUnit, apply, hknown, hbound, Option.map_some]
  rfl

/-- **A function is called with what binds to its parameters**: with the configuration and its
caller if these bind, and else with the configuration alone if this does. In both cases the unit of
the function answers with its result for the arguments that are bound. -/
theorem called_with_what_binds (hknown : f.parameters = some parameters) (name : String)
    (config : Value) (caller : Caller) : (Binds parameters [config, callerArgument caller] →
      f.arguments config caller = [config, callerArgument caller]) ∧
      (¬ Binds parameters [config, callerArgument caller] → Binds parameters [config] →
        f.arguments config caller = [config]) ∧
      (Binds parameters [config, callerArgument caller] ∨ Binds parameters [config] →
        ∃ bound, bindArguments parameters (f.arguments config caller) = some bound ∧
          (f.toUnit name).behaviour.map (fun call => call config caller) =
            some (Call.answer (f.result bound))) := by
  have htakes := takesCaller_iff hknown
  have hboth (h : Binds parameters [config, callerArgument caller]) :
      f.arguments config caller = [config, callerArgument caller] :=
    if_pos (htakes.mpr (binds_iff.mp h).1)
  have halone (hnot : ¬ Binds parameters [config, callerArgument caller])
      (h : Binds parameters [config]) : f.arguments config caller = [config] := by
    refine if_neg fun hcaller => hnot (binds_iff.mpr ⟨htakes.mp hcaller, fun p hp => ?_⟩)
    -- What stays without an argument beside two stays without one beside the first.
    exact (binds_iff.mp h).2 p ((withoutArgument_succ_sublist parameters 1).subset hp)
  have hbinds (h : Binds parameters [config, callerArgument caller] ∨ Binds parameters [config]) :
      Binds parameters (f.arguments config caller) := by
    by_cases hfits : Binds parameters [config, callerArgument caller]
    · rwa [hboth hfits]
    · have h := h.resolve_left hfits
      rwa [halone hfits h]
  refine ⟨hboth, halone, fun h => ?_⟩
  obtain ⟨bound, hbound⟩ := Option.isSome_iff_exists.mp (hbinds h)
  exact ⟨bound, hbound, toUnit_answers hknown name hbound⟩

/-- Parameters of which the second one comes by name only. -/
def namedParameters : List Parameter :=
  [{ name := "config" }, { name := "context", kind := .named, default := some .null }]

/-- A function with these parameters, whose result shows what they got. -/
def namedCaller : Function where
  parameters := some namedParameters
  result := Value.record

/-- There are two parameters but room for one argument, and so the function is called with the
configuration alone. -/
theorem called_with_what_binds_named :
    ¬ Binds namedParameters [.bool true, .null] ∧ Binds namedParameters [.bool true] ∧
      (namedCaller.toUnit "named").behaviour.map (fun call => call (.bool true) (.other .null)) =
        some (Call.answer (.record [("config", .bool true), ("context", .null)])) := by
  have hboth : ¬ Binds namedParameters [.bool true, .null] := by decide
  have hone : Binds namedParameters [.bool true] := by decide
  have hknown : namedCaller.parameters = some namedParameters := rfl
  obtain ⟨-, halone, hanswers⟩ := called_with_what_binds hknown "named" (.bool true) (.other .null)
  obtain ⟨bound, hbound, hanswer⟩ := hanswers (.inr hone)
  rw [halone hboth hone] at hbound
  obtain rfl := Option.some.inj hbound
  exact ⟨hboth, hone, hanswer⟩

end Function

end Switchyard
