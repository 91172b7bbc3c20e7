import Switchyard.Binding.Compile

/-!
# Running compilations

A compilation takes the cache of expressions from one step to the next and ends at the first error.
-/

namespace Switchyard.Compilation

variable {α β : Type} {cache cache' : SourceCache}

/-- Two compilations in a row: the second one goes on with the result and the
cache of the first one. -/
theorem run_bind (x : Compilation α) (f : α → Compilation β) (cache : SourceCache) :
    (x >>= f) cache = match x cache with
      | (.ok a, cache) => f a cache
      | (.error e, cache) => (.error e, cache) := by
  -- The cache is carried through by the inner layer, the error by the outer one.
  change (match x cache with | (r, c) => (ExceptT.bindCont f r) c) = _
  rcases x cache with ⟨r, c⟩
  cases r <;> rfl

/-- A compilation whose error is caught: the handler goes on with the cache that the
compilation leaves. -/
theorem run_tryCatch (x : Compilation α) (handler : Raised → Compilation α) (cache : SourceCache) :
    (tryCatch x handler : Compilation α) cache = match x cache with
      | (.ok a, cache) => (.ok a, cache)
      | (.error e, cache) => handler e cache := by
  -- The error is caught by the outer layer, the cache goes on through the inner one.
  simp only [tryCatch, tryCatchThe, MonadExceptOf.tryCatch, ExceptT.tryCatch, ExceptT.mk,
    bind, StateT.bind]
  rcases x cache with ⟨r, c⟩
  cases r <;> rfl

/-- How two compilations in a row succeed. -/
theorem run_bind_ok {x : Compilation α} {f : α → Compilation β} {y : β}
    (h : (x >>= f) cache = (.ok y, cache')) :
    ∃ a between, x cache = (.ok a, between) ∧ f a between = (.ok y, cache') := by
  rw [run_bind] at h
  split at h
  · rename_i a between hx
    exact ⟨a, between, hx, h⟩
  · cases (Prod.mk.inj h).1

end Switchyard.Compilation
