import Switchyard.Activity
import Mathlib.Data.List.Forall2

/-!
# Activities in flight

Activities that act on one state, any number of them and in any order: an activity begins, an
activity that suspended itself or waits has its turn, or somebody else changes the state. What an
activity does in its turns is decided by the states that it finds.

Main statements: an activity in flight stays in its place and only has turns (`exists_after_run`);
and activities that act on a part of a larger state go as they do on that part alone, whatever
happens to the rest (`run_carries`).
-/

namespace Switchyard

/-! ## §1 Turns -/

namespace Activity

variable {σ τ α : Type} {part : τ → σ} {replace : τ → σ → τ}

/-- The state that an activity leaves. -/
def state : Activity σ α → σ
  | .done s _ | .paused s _ | .waiting s _ => s

/-- The result of an activity that is over. -/
def result? : Activity σ α → Option α
  | .done _ x => some x
  | .paused .. | .waiting .. => none

/-- The turn of an activity in a state: a wait is called off, and what is over has no turn. -/
def next? : Activity σ α → σ → Option (Activity σ α)
  | .done .., _ => none
  | .paused _ resume, t => some (resume t)
  | .waiting _ callOff, t => some (callOff t)

/-- An activity after its turns in some states. -/
def after (a : Activity σ α) (ts : List σ) : Activity σ α :=
  ts.foldl (fun a t => (a.next? t).getD a) a

theorem after_append {a : Activity σ α} {ts us : List σ} :
    a.after (ts ++ us) = (a.after ts).after us :=
  List.foldl_append

theorem after_singleton {a b : Activity σ α} {t : σ} (h : a.next? t = some b) :
    a.after [t] = b := by
  unfold after
  rw [List.foldl_cons, List.foldl_nil, h]
  rfl

@[simp] theorem state_within {a : Activity σ α} {t : τ} :
    (a.within part replace t).state = replace t a.state := by
  cases a <;> rfl

@[simp] theorem result?_within {a : Activity σ α} {t : τ} :
    (a.within part replace t).result? = a.result? := by
  cases a <;> rfl

/-- A turn on a larger state is a turn on the part. -/
theorem next?_within {a : Activity σ α} {t u : τ} :
    (a.within part replace t).next? u = (a.next? (part u)).map (·.within part replace u) := by
  cases a <;> rfl

end Activity

/-! ## §2 Pools -/

/-- Activities that act on one state, in the order in which they began. -/
structure Pool (σ α : Type) where
  state : σ
  flights : List (Activity σ α) := []

/-- What can happen next: an activity begins, one has its turn, or the state is
changed by somebody else. -/
inductive Move (σ α : Type)
  | enter (activity : σ → Activity σ α)
  | resume (place : Nat)
  | change (f : σ → σ)

namespace Pool

variable {σ τ α : Type}

/-- What the activity at a place becomes in its turn, if there is one that has a turn. -/
def turn? (pool : Pool σ α) (place : Nat) : Option (Activity σ α) :=
  pool.flights[place]?.bind (·.next? pool.state)

def step (pool : Pool σ α) : Move σ α → Pool σ α
  | .enter activity => ⟨(activity pool.state).state, pool.flights ++ [activity pool.state]⟩
  | .resume place => match pool.turn? place with
    | some flight => ⟨flight.state, pool.flights.set place flight⟩
    | none => pool
  | .change f => { pool with state := f pool.state }

def run (pool : Pool σ α) (moves : List (Move σ α)) : Pool σ α := moves.foldl step pool

@[simp] theorem run_cons {pool : Pool σ α} {move : Move σ α} {rest : List (Move σ α)} :
    pool.run (move :: rest) = (pool.step move).run rest := rfl

/-- The results of the activities, as far as they are over. -/
def results (pool : Pool σ α) : List (Option α) := pool.flights.map (·.result?)

theorem run_append {pool : Pool σ α} {moves more : List (Move σ α)} :
    pool.run (moves ++ more) = (pool.run moves).run more := by
  simp [run]

theorem step_resume_of_none {pool : Pool σ α} {place : Nat} (h : pool.turn? place = none) :
    pool.step (.resume place) = pool := by
  simp only [step, h]

theorem step_resume_of_some {pool : Pool σ α} {place : Nat} {flight : Activity σ α}
    (h : pool.turn? place = some flight) :
    pool.step (.resume place) = ⟨flight.state, pool.flights.set place flight⟩ := by
  simp only [step, h]

/-! ## §3 What is in flight -/

section Pointwise

variable {β γ : Type} {R : β → γ → Prop} {xs : List β} {ys : List γ} {place : Nat}

theorem forall₂_set {x : β} {y : γ} (h : List.Forall₂ R xs ys) (hxy : R x y) :
    List.Forall₂ R (xs.set place x) (ys.set place y) := by
  induction h generalizing place with
  | nil => exact .nil
  | cons hfirst hrest ih =>
    cases place with
    | zero => exact .cons hxy hrest
    | succ place => exact .cons hfirst ih

theorem exists_of_forall₂_right {y : γ} (h : List.Forall₂ R xs ys) (hy : ys[place]? = some y) :
    ∃ x, xs[place]? = some x ∧ R x y := by
  induction h generalizing place with
  | nil => cases hy
  | cons hfirst hrest ih =>
    cases place with
    | zero =>
      obtain rfl := Option.some.inj hy
      exact ⟨_, rfl, hfirst⟩
    | succ place => exact ih hy

end Pointwise

/-- A move gives the activity at a place some turns, if any. -/
theorem exists_after_step {pool : Pool σ α} {place : Nat} {flight : Activity σ α} (move : Move σ α)
    (h : pool.flights[place]? = some flight) :
    ∃ ts, (pool.step move).flights[place]? = some (flight.after ts) := by
  have hlt : place < pool.flights.length := (List.getElem?_eq_some_iff.mp h).1
  cases move with
  | enter activity =>
    refine ⟨[], ?_⟩
    show (pool.flights ++ [activity pool.state])[place]? = some flight
    rw [List.getElem?_append_left hlt, h]
  | change f => exact ⟨[], h⟩
  | resume other =>
    cases hturn : pool.turn? other with
    | none =>
      rw [step_resume_of_none hturn]
      exact ⟨[], h⟩
    | some next =>
      rw [step_resume_of_some hturn]
      by_cases hother : other = place
      · -- The turn is that of the activity itself, in the present state.
        subst hother
        have hnext : flight.next? pool.state = some next := by
          rwa [turn?, h, Option.bind_some] at hturn
        exact ⟨[pool.state], by rw [List.getElem?_set_self hlt, Activity.after_singleton hnext]⟩
      · exact ⟨[], by rw [List.getElem?_set_ne hother, h]; rfl⟩

/-- **What is in flight** stays in its place, and only has turns. -/
theorem exists_after_run {pool : Pool σ α} {place : Nat} {flight : Activity σ α}
    (moves : List (Move σ α)) (h : pool.flights[place]? = some flight) :
    ∃ ts, (pool.run moves).flights[place]? = some (flight.after ts) := by
  induction moves generalizing pool flight with
  | nil => exact ⟨[], h⟩
  | cons move rest ih =>
    obtain ⟨ts, hstep⟩ := exists_after_step move h
    obtain ⟨us, hrest⟩ := ih hstep
    exact ⟨ts ++ us, by rw [run_cons, hrest, Activity.after_append]⟩

/-! ## §4 Parts of a larger state -/

section Carries

variable (part : τ → σ) (replace : τ → σ → τ)

/-- **A pool carries another one** over a part of its state: the part is the state of the other
pool, and the activities in flight are those of the other pool, acting on the part. -/
structure Carries (pool : Pool τ α) (inner : Pool σ α) : Prop where
  state : part pool.state = inner.state
  flights : List.Forall₂ (fun a b => ∃ t, a = b.within part replace t) pool.flights inner.flights

/-- A move **comes to** another one over the part of a state. -/
inductive ComesTo (t : τ) : Move τ α → Move σ α → Prop
  | enter {f : τ → Activity τ α} {g : σ → Activity σ α} {u : τ} :
      f t = (g (part t)).within part replace u → ComesTo t (.enter f) (.enter g)
  | resume (place : Nat) :
      ComesTo t (.resume place) (.resume place)
  | change {f : τ → τ} {g : σ → σ} :
      part (f t) = g (part t) → ComesTo t (.change f) (.change g)

/-- The moves that events amount to on the inner side, each of them in the state in which its event
finds the outer pool. -/
def innerMoves {ε : Type} (outerMove : ε → Move τ α) (innerMove : τ → ε → Move σ α) :
    Pool τ α → List ε →
    List (Move σ α)
  | _, [] => []
  | pool, event :: rest =>
    innerMove pool.state event :: innerMoves outerMove innerMove (pool.step (outerMove event)) rest

variable {part replace}

theorem innerMoves_append {ε : Type} {outerMove : ε → Move τ α} {innerMove : τ → ε → Move σ α}
    {pool : Pool τ α} {events more : List ε} :
    innerMoves outerMove innerMove pool (events ++ more) =
      innerMoves outerMove innerMove pool events ++
        innerMoves outerMove innerMove (pool.run (events.map outerMove)) more := by
  induction events generalizing pool with
  | nil => rfl
  | cons event rest ih =>
    rw [List.cons_append, innerMoves, innerMoves, ih, List.cons_append, List.map_cons, run_cons]

/-- Events whose moves are the same in all states amount to these moves. -/
theorem innerMoves_eq_map {ε : Type} {outerMove : ε → Move τ α} {innerMove : τ → ε → Move σ α}
    {pool : Pool τ α} {events : List ε} {fixed : ε → Move σ α}
    (h : ∀ event ∈ events, ∀ t, innerMove t event = fixed event) :
    innerMoves outerMove innerMove pool events = events.map fixed := by
  induction events generalizing pool with
  | nil => rfl
  | cons event rest ih =>
    rw [innerMoves, List.map_cons, h event (List.mem_cons_self ..),
      ih fun later hlater => h later (List.mem_cons_of_mem _ hlater)]

/-- The activity at a place is the one of the other pool, acting on the part. -/
theorem Carries.getElem? {pool : Pool τ α} {inner : Pool σ α}
    (h : Carries part replace pool inner) {place : Nat} {b : Activity σ α}
    (hb : inner.flights[place]? = some b) :
    ∃ t, pool.flights[place]? = some (b.within part replace t) := by
  obtain ⟨a, ha, t, rfl⟩ := exists_of_forall₂_right h.flights hb
  exact ⟨t, ha⟩

/-- A pool has the results of the one that it carries. -/
theorem Carries.results_eq {pool : Pool τ α} {inner : Pool σ α}
    (h : Carries part replace pool inner) : pool.results = inner.results := by
  unfold results
  have hresults := h.flights
  generalize pool.flights = flights, inner.flights = innerFlights at hresults ⊢
  induction hresults with
  | nil => rfl
  | cons hfirst hrest ih =>
    obtain ⟨t, rfl⟩ := hfirst
    rw [List.map_cons, List.map_cons, ih, Activity.result?_within]

variable (hreplace : ∀ t s, part (replace t s) = s) {pool : Pool τ α} {inner : Pool σ α}

include hreplace

/-- One move of a pool is the move that it comes to of the pool that it carries. -/
theorem step_carries {move : Move τ α} {move' : Move σ α} (h : Carries part replace pool inner)
    (hmove : ComesTo part replace pool.state move move') :
    Carries part replace (pool.step move) (inner.step move') := by
  cases hmove with
  | @enter f g u hflight =>
    rw [h.state] at hflight
    refine ⟨?_, ?_⟩
    · show part (f pool.state).state = (g inner.state).state
      rw [hflight, Activity.state_within, hreplace]
    · exact List.rel_append h.flights (.cons ⟨u, hflight⟩ .nil)
  | @change f g hstate =>
    refine ⟨?_, h.flights⟩
    rw [h.state] at hstate
    exact hstate
  | resume place =>
    -- The activity at the place has a turn in the one pool exactly if it has one in the other.
    have hturn : pool.turn? place = (inner.turn? place).map (·.within part replace pool.state) := by
      unfold turn?
      cases hplace : inner.flights[place]? with
      | none =>
        have hnone : pool.flights[place]? = none := by
          rw [List.getElem?_eq_none_iff] at hplace ⊢
          exact h.flights.length_eq ▸ hplace
        rw [hnone]
        rfl
      | some b =>
        obtain ⟨t, ha⟩ := h.getElem? hplace
        rw [ha, Option.bind_some, Option.bind_some, Activity.next?_within, h.state]
    cases hinner : inner.turn? place with
    | none =>
      rw [hinner] at hturn
      rwa [step_resume_of_none hturn, step_resume_of_none hinner]
    | some next =>
      rw [hinner] at hturn
      rw [step_resume_of_some hturn, step_resume_of_some hinner]
      refine ⟨?_, forall₂_set h.flights ⟨pool.state, rfl⟩⟩
      show part (next.within part replace pool.state).state = next.state
      rw [Activity.state_within, hreplace]

/-- **Runs on a part**: while events go on, the outer pool carries the one on which their
inner moves are made. -/
theorem run_carries {ε : Type} {outerMove : ε → Move τ α} {innerMove : τ → ε → Move σ α}
    (hmoves : ∀ t event, ComesTo part replace t (outerMove event) (innerMove t event))
    {events : List ε} (h : Carries part replace pool inner) :
    Carries part replace (pool.run (events.map outerMove))
      (inner.run (innerMoves outerMove innerMove pool events)) := by
  induction events generalizing pool inner with
  | nil => exact h
  | cons event rest ih => exact ih (step_carries hreplace h (hmoves pool.state event))

end Carries

end Pool

end Switchyard
