import Switchyard.Proofs.Activity.Share

/-!
# Who had a turn when

Requests that are taken up become activities in flight. A record of visits keeps, for each of them,
the state in which it was taken up and those in which it has had its turns.

Main statements: whatever happens, the activities in flight are those of the visits, and what was
added to the trail is made of their shares, in whatever order they had their turns
(`Pool.Logs.step`, `Pool.Logs.run`).
-/

namespace Switchyard

variable {σ α κ ρ : Type}

/-! ## §1 Visits -/

/-- What can happen while requests are handled: a request is taken up, one in flight has its turn,
or somebody else changes the state. -/
inductive Deed (ρ σ : Type)
  | take (request : ρ)
  | turn (place : Nat)
  | change (f : σ → σ)

/-- The move that it makes, where requests are handled in a given way. -/
def Deed.move (handler : ρ → σ → Activity σ α) : Deed ρ σ → Move σ α
  | .take request => .enter (handler request)
  | .turn place => .resume place
  | .change f => .change f

/-- **A visit**: a request, the state in which it was taken up, and those in which
it has had its turns. -/
structure Visit (ρ σ : Type) where
  request : ρ
  start : σ
  turns : List σ := []

/-- The visit after one more turn. -/
def Visit.turned (visit : Visit ρ σ) (t : σ) : Visit ρ σ :=
  { visit with turns := visit.turns ++ [t] }

/-- The visits after something has happened. -/
def Pool.attend (pool : Pool σ α) (visits : List (Visit ρ σ)) : Deed ρ σ → List (Visit ρ σ)
  | .take request => visits ++ [⟨request, pool.state, []⟩]
  | .turn place => match pool.turn? place, visits[place]? with
    | some _, some visit => visits.set place (visit.turned pool.state)
    | _, _ => visits
  | .change _ => visits

/-- The visits after many things have happened. -/
def Pool.visitsFrom (handler : ρ → σ → Activity σ α) :
    Pool σ α → List (Visit ρ σ) → List (Deed ρ σ) → List (Visit ρ σ)
  | _, visits, [] => visits
  | pool, visits, deed :: rest =>
    visitsFrom handler (pool.step (deed.move handler)) (pool.attend visits deed) rest

/-! ## §2 Places -/

section Places

variable {β γ : Type} {R : β → γ → Prop} {xs : List β} {ys : List γ} {place : Nat} {x y : β}

theorem exists_of_forall₂_left (h : List.Forall₂ R xs ys) (hx : xs[place]? = some x) :
    ∃ y, ys[place]? = some y ∧ R x y :=
  Pool.exists_of_forall₂_right h.flip hx

/-- Putting something in a place that holds more adds what it holds more. -/
theorem flatten_set_perm {xss : List (List β)} {xs more : List β} (hxs : xss[place]? = some xs) :
    (xss.set place (xs ++ more)).flatten.Perm (xss.flatten ++ more) := by
  induction xss generalizing place with
  | nil => cases hxs
  | cons first rest ih =>
    cases place with
    | zero =>
      obtain rfl := Option.some.inj hxs
      simp only [List.set_cons_zero, List.flatten_cons, List.append_assoc]
      exact .append_left _ List.perm_append_comm
    | succ place =>
      simp only [List.set_cons_succ, List.flatten_cons, List.append_assoc]
      exact .append_left _ (ih hxs)

end Places

/-! ## §3 Logs -/

section Logs

variable (handler : ρ → σ → Activity σ α) (trail : σ → List κ)

/-- **Visits log a pool**: they tell of the activities in flight, and what was added to the trail
since is made of their shares. -/
structure Pool.Logs (base : List κ) (pool : Pool σ α) (visits : List (Visit ρ σ))
    (shares : List (List κ)) : Prop where
  flights : List.Forall₂
    (fun visit flight => flight = (handler visit.request visit.start).after visit.turns) visits
    pool.flights
  adds : List.Forall₂ (fun visit share =>
    (handler visit.request visit.start).Adds trail visit.start visit.turns share)
    visits shares
  trail : (trail pool.state).Perm (base ++ shares.flatten)

namespace Pool.Logs

variable {handler trail} {base : List κ} {pool : Pool σ α} {visits : List (Visit ρ σ)}
  {shares : List (List κ)}

/-- Nothing is in flight at first. -/
theorem empty (s : σ) : Pool.Logs handler trail (trail s) ⟨s, []⟩ [] [] :=
  ⟨.nil, .nil, by simp⟩

/-- A request that is taken up is one more visit. -/
theorem take (h : Pool.Logs handler trail base pool visits shares) (request : ρ)
    (hgrows : Activity.Grows trail pool.state (handler request pool.state)) :
    ∃ shares', Pool.Logs handler trail base (pool.step (.enter (handler request)))
      (visits ++ [⟨request, pool.state, []⟩]) shares' := by
  -- What the request adds at once is its share so far.
  obtain ⟨own, hown⟩ := hgrows.state
  refine ⟨shares ++ [own], ?_, ?_, ?_⟩
  · exact List.rel_append h.flights (.cons rfl .nil)
  · exact List.rel_append h.adds (.cons (.first hown.symm) .nil)
  · show (trail (handler request pool.state).state).Perm _
    rw [← hown, List.flatten_append, List.flatten_singleton, ← List.append_assoc]
    exact h.trail.append_right own

/-- **A turn** adds to the share of the visit whose turn it is, and to no other. -/
theorem turn (h : Pool.Logs handler trail base pool visits shares)
    (hgrows : ∀ request s, Activity.Grows trail s (handler request s)) (place : Nat) :
    ∃ shares', Pool.Logs handler trail base (pool.step (.resume place))
      (pool.attend visits (.turn place)) shares' := by
  cases hturn : pool.turn? place with
  | none =>
    rw [step_resume_of_none hturn, attend, hturn]
    exact ⟨shares, h⟩
  | some next =>
    obtain ⟨flight, hflight, hnext⟩ := Option.bind_eq_some_iff.mp hturn
    obtain ⟨visit, hvisit, rfl⟩ := exists_of_forall₂_right h.flights hflight
    obtain ⟨share, hshare, hadds⟩ := exists_of_forall₂_left h.adds hvisit
    obtain ⟨s, hafter⟩ := (hgrows visit.request visit.start).after visit.turns
    obtain ⟨own, hown⟩ := (hafter.next hnext).state
    rw [step_resume_of_some hturn, attend, hturn, hvisit]
    -- Only the visit in this place has one turn more, and only its share grows.
    refine ⟨shares.set place (share ++ own), ?_, ?_, ?_⟩
    · refine forall₂_set h.flights ?_
      rw [Visit.turned, Activity.after_append, Activity.after_singleton hnext]
    · exact forall₂_set h.adds (hadds.concat hnext hown.symm)
    · show (trail next.state).Perm _
      rw [← hown]
      refine (h.trail.append_right own).trans ?_
      rw [List.append_assoc]
      exact .append_left _ (flatten_set_perm hshare).symm

/-- **One deed**: the visits log what is in flight then. -/
theorem step {deed : Deed ρ σ} (h : Pool.Logs handler trail base pool visits shares)
    (hgrows : ∀ request s, Activity.Grows trail s (handler request s))
    (hchange : ∀ f, deed = .change f → ∀ s, trail (f s) = trail s) :
    ∃ shares', Pool.Logs handler trail base (pool.step (deed.move handler))
      (pool.attend visits deed) shares' := by
  cases deed with
  | take request => exact h.take request (hgrows request pool.state)
  | turn place => exact h.turn hgrows place
  | change f =>
    refine ⟨shares, h.flights, h.adds, ?_⟩
    show (trail (f pool.state)).Perm _
    rw [hchange f rfl]
    exact h.trail

/-- **Many deeds**: whatever happens, the visits log what is in flight. -/
theorem run {deeds : List (Deed ρ σ)} (h : Pool.Logs handler trail base pool visits shares)
    (hgrows : ∀ request s, Activity.Grows trail s (handler request s))
    (hchange : ∀ f, .change f ∈ deeds → ∀ s, trail (f s) = trail s) :
    ∃ shares', Pool.Logs handler trail base (pool.run (deeds.map (Deed.move handler)))
      (pool.visitsFrom handler visits deeds) shares' := by
  induction deeds generalizing pool visits shares with
  | nil => exact ⟨shares, h⟩
  | cons deed rest ih =>
    obtain ⟨shares', hstep⟩ := h.step hgrows fun f hf => hchange f (hf ▸ List.mem_cons_self ..)
    exact ih hstep fun f hf => hchange f (List.mem_cons_of_mem _ hf)

end Pool.Logs

end Logs

/-- An activity that has added something in its turns and is over has come to its end in them. -/
theorem Activity.Adds.ends {trail : σ → List κ} {s u : σ} {a : Activity σ α} {ts : List σ}
    {calls : List κ} {x : α} (h : a.Adds trail s ts calls) (hover : a.after ts = .done u x) :
    a.Ends true ts u x := by
  induction h with
  | @first s a own _ =>
    rw [show a = .done u x from hover]
    exact .done u x
  | @turn s t a b ts own more _ hnext _ ih =>
    have hrest : b.after ts = .done u x := by
      rw [← hover, ← after_singleton hnext, ← after_append]
      rfl
    cases a with
    | done v y => cases hnext
    | paused v resume =>
      obtain rfl := Option.some.inj hnext
      exact .resumed (ih hrest)
    | waiting v callOff =>
      obtain rfl := Option.some.inj hnext
      exact .calledOff rfl (ih hrest)

end Switchyard
