import Switchyard.Proofs.Engine.Alone

/-!
# Where activities stop

An activity that goes alone is resumed in the state that it left. It stops at its end, or where it
waits for the first time unless waits are called off. So a limit can be told from the way in which
the activity stops without waits being called off.

Main statements: an activity stops as its parts do (`stop_bind`, `stop_within`), and what a limited
activity comes to (`stop_limited`).
-/

namespace Switchyard

namespace Activity

variable {σ τ α β : Type} {off : Bool}

/-- **Where an activity stops** that goes alone: the state, and the result unless it waits there. -/
def stop (off : Bool) : Activity σ α → σ × Option α
  | .done s x => (s, some x)
  | .paused s resume => (resume s).stop off
  | .waiting s callOff => if off then (callOff s).stop off else (s, none)

/-- If waits are called off, an activity stops at its end. -/
theorem stop_true (a : Activity σ α) : a.stop true = (a.finish.1, some a.finish.2) := by
  induction a with
  | done s x => rfl
  | paused s resume ih => exact ih s
  | waiting s callOff ih => exact ih s

/-- **Composition**: what follows an activity stops where it does, unless the activity has
stopped before its end. -/
theorem stop_bind (a : Activity σ α) (next : σ → α → Activity σ β) :
    (a.bind next).stop off =
      match a.stop off with
      | (s, some x) => (next s x).stop off
      | (s, none) => (s, none) := by
  induction a with
  | done s x => rfl
  | paused s resume ih => exact ih s
  | waiting s callOff ih =>
    cases off with
    | true => exact ih s
    | false => rfl

/-- An activity over a part of a larger state stops where it does, and leaves
everything else alone. -/
theorem stop_within {part : τ → σ} {replace : τ → σ → τ} (hpart : ∀ t s, part (replace t s) = s)
    (hreplace : ∀ t s s', replace (replace t s) s' = replace t s') (a : Activity σ α) (t : τ) :
    (a.within part replace t).stop off = (replace t (a.stop off).1, (a.stop off).2) := by
  induction a generalizing t with
  | done s x => rfl
  | paused s resume ih => simp only [Activity.within, stop, hpart, ih, hreplace]
  | waiting s callOff ih =>
    cases off with
    | true => simp only [Activity.within, stop, hpart, ih, hreplace, if_true]
    | false => rfl

/-- **A limited activity** stops where it would without the limit, with
nothing if that is a wait. -/
theorem stop_limited (a : Activity σ α) :
    ((a.map some).limited fun s => .done s none).stop true =
      ((a.stop false).1, some (a.stop false).2) := by
  induction a with
  | done s x => rfl
  | paused s resume ih => exact ih s
  | waiting s callOff _ => rfl

end Activity

theorem World.stop_act {off : Bool} (call : Call) (w : World) :
    (World.act call w).stop off =
      ({ w with surroundings := ((call w.surroundings).stop off).1 },
        ((call w.surroundings).stop off).2) := by
  unfold act
  rw [Activity.stop_within]
  · exact fun _ _ => rfl
  · exact fun _ _ _ => rfl

end Switchyard
