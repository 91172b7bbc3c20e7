/-!
# Activities

An activity is a computation over a state that other computations share. It may suspend itself: then
the others go on and may change the state, and the activity resumes from the state that they leave.
It may also wait for something that never comes; such a wait ends only when it is called off.

Activities run together in turns. In each round every activity goes on, in a fixed order, up
to its next suspension.
-/

namespace Switchyard

/-- A computation over a shared state with a result. -/
inductive Activity (σ α : Type)
  | done (state : σ) (result : α)
  | paused (state : σ) (resume : σ → Activity σ α)
  | waiting (state : σ) (callOff : σ → Activity σ α)

namespace Activity

variable {σ τ α β γ : Type}

/-- Goes on with another activity after the first. -/
def bind : Activity σ α → (σ → α → Activity σ β) → Activity σ β
  | .done s x, next => next s x
  | .paused s resume, next => .paused s fun t => (resume t).bind next
  | .waiting s callOff, next => .waiting s fun t => (callOff t).bind next

def map (f : α → β) : Activity σ α → Activity σ β
  | .done s x => .done s (f x)
  | .paused s resume => .paused s fun t => (resume t).map f
  | .waiting s callOff => .waiting s fun t => (callOff t).map f

def within (part : τ → σ) (replace : τ → σ → τ) : Activity σ α → τ → Activity τ α
  | .done s x, t => .done (replace t s) x
  | .paused s resume, t => .paused (replace t s) fun u => (resume (part u)).within part replace u
  | .waiting s callOff, t =>
    .waiting (replace t s) fun u => (callOff (part u)).within part replace u

/-- Gives an activity a limit: where it would wait, another one takes over once
the limit has passed. -/
def limited (expired : σ → Activity σ α) : Activity σ α → Activity σ α
  | .done s x => .done s x
  | .paused s resume => .paused s fun t => (resume t).limited expired
  | .waiting s _ => .waiting s expired

/-- Runs an activity to its end, with nothing else going on, and calls off every wait. -/
def finish : Activity σ α → σ × α
  | .done s x => (s, x)
  | .paused s resume => (resume s).finish
  | .waiting s callOff => (callOff s).finish

/-- Runs an activity to its end while another one waits. `both` goes on with the
two once both wait. -/
def beside (finished : σ → β → Activity σ γ) (both : σ → (σ → Activity σ β) → Activity σ γ) :
    Activity σ β → Activity σ γ
  | .done s y => .waiting s fun t => finished t y
  | .paused s resume => .paused s fun t => (resume t).beside finished both
  -- Nothing can go on, so the waits are called off together.
  | .waiting s callOff => .waiting s fun t => both t callOff

/-- Runs two activities in turns, the first one first in each round. Waits are called off when
nothing else can go on. -/
def together : Activity σ α → (σ → Activity σ β) → Activity σ (α × β)
  | .done s x, other => (other s).map fun y => (x, y)
  -- Both have had a turn when the round ends, even if the second one ended in it.
  | .paused s resume, other => match other s with
    | .done t y => .paused t fun u => (resume u).map fun x => (x, y)
    | .paused t resume' => .paused t fun u => (resume u).together resume'
    | .waiting t callOff => .paused t fun u => (resume u).together fun v => .waiting v callOff
  -- Only the second one can go on now; the wait is called off when it cannot either.
  | .waiting s callOff, other =>
    (other s).beside (fun t y => (callOff t).map fun x => (x, y)) fun t other =>
      (callOff t).together other

/-- Runs activities in turns; the results come in the order of the activities. -/
def gather : List (σ → Activity σ α) → σ → Activity σ (List α)
  | [], s => .done s []
  | activity :: rest, s => ((activity s).together (gather rest)).map fun (x, xs) => x :: xs

/-- Suspends once before going on. -/
def later (activity : σ → Activity σ α) (s : σ) : Activity σ α := .paused s activity

end Activity

end Switchyard
