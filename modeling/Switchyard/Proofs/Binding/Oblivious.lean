import Switchyard.Proofs.Binding.Compilation
import Switchyard.Proofs.Cache.Sound

/-!
# Compilations that do not show their cache

A cache that was only ever filled by reading changes how long a compilation takes, and never what it
comes to. So the cache can be resized, emptied and shared with others, and a configuration is
compiled to the same bindings, or fails with the same error, as with a cache of its own.

Main statement: compiling raw values is oblivious (`compile_oblivious`).
-/

namespace Switchyard

/-! ## §1 Oblivious compilations -/

/-- **An oblivious compilation** comes to the same with every sound cache, and
leaves a sound one. -/
def Compilation.Oblivious {α : Type} (x : Compilation α) : Prop :=
  ∃ result, ∀ cache : SourceCache, cache.Sound Expression.parse →
    ∃ cache', x cache = (result, cache') ∧ cache'.Sound Expression.parse

namespace Compilation.Oblivious

variable {α β : Type} {x : Compilation α} {f : α → Compilation β} {handler : Raised → Compilation α}

theorem pure (a : α) : Oblivious (pure a) := ⟨.ok a, fun cache hcache => ⟨cache, rfl, hcache⟩⟩

theorem throw (e : Raised) : Oblivious (throw e : Compilation α) :=
  ⟨.error e, fun cache hcache => ⟨cache, rfl, hcache⟩⟩

/-- Compilations in a row are oblivious if each is. -/
theorem bind (hx : Oblivious x) (hf : ∀ a, Oblivious (f a)) : Oblivious (x >>= f) := by
  obtain ⟨first, hfirst⟩ := hx
  cases first with
  | error e =>
    refine ⟨.error e, ?_⟩
    intro cache hcache
    obtain ⟨between, hrun, hsound⟩ := hfirst cache hcache
    rw [run_bind, hrun]
    exact ⟨between, rfl, hsound⟩
  | ok a =>
    obtain ⟨second, hsecond⟩ := hf a
    refine ⟨second, ?_⟩
    intro cache hcache
    obtain ⟨between, hrun, hsound⟩ := hfirst cache hcache
    rw [run_bind, hrun]
    exact hsecond between hsound

/-- A compilation whose errors are handled is oblivious if its handler is. -/
theorem tryCatch (hx : Oblivious x) (hhandler : ∀ e, Oblivious (handler e)) :
    Oblivious (tryCatch x handler) := by
  obtain ⟨first, hfirst⟩ := hx
  cases first with
  | ok a =>
    refine ⟨.ok a, ?_⟩
    intro cache hcache
    obtain ⟨between, hrun, hsound⟩ := hfirst cache hcache
    rw [run_tryCatch, hrun]
    exact ⟨between, rfl, hsound⟩
  | error e =>
    obtain ⟨second, hsecond⟩ := hhandler e
    refine ⟨second, ?_⟩
    intro cache hcache
    obtain ⟨between, hrun, hsound⟩ := hfirst cache hcache
    rw [run_tryCatch, hrun]
    exact hsecond between hsound

/-- With another sound cache an oblivious compilation ends in the same way. -/
theorem run {result : Except Raised α} {cache cache' other : SourceCache} (hx : Oblivious x)
    (h : x cache = (result, cache')) (hcache : cache.Sound Expression.parse)
    (hother : other.Sound Expression.parse) :
    ∃ other', x other = (result, other') ∧ other'.Sound Expression.parse := by
  obtain ⟨ended, hended⟩ := hx
  obtain ⟨between, hrun, -⟩ := hended cache hcache
  obtain ⟨rfl, -⟩ := Prod.mk.inj (h.symm.trans hrun)
  exact hended other hother

end Compilation.Oblivious

/-! ## §2 Raw values -/

namespace Binding

open Compilation (Oblivious)

/-- Reading an expression through the cache does not show it. -/
theorem readCached_oblivious (source : String) : Oblivious (readCached source) := by
  refine ⟨Expression.parse source, ?_⟩
  intro cache hcache
  obtain ⟨hread, hsound⟩ := Cache.fetch_of_sound hcache source
  exact ⟨_, Prod.ext hread rfl, hsound⟩

mutual

/-- **Compiling** a raw value does not show the cache. -/
theorem compile_oblivious : ∀ raw : Value, Oblivious (compile raw)
  | .atom (.marker source) => (readCached_oblivious source).bind fun _ => .pure _
  | .atom .null | .atom (.bool _) | .atom (.int _) | .atom (.float _) | .atom (.text _)
  | .atom (.bytes _)
  | .atom (.foreign ..) => .pure _
  | .shared _ => .pure _
  | .list items => (compileItems_oblivious items).bind fun _ => .pure _
  | .tuple items => (compileItems_oblivious items).bind fun _ => .pure _
  | .map entries => by
    unfold compile
    cases markedSource? (.map entries) with
    | some source => exact (readCached_oblivious source).bind fun _ => .pure _
    | none => exact (compileEntries_oblivious entries).bind fun _ => .pure _

theorem compileItems_oblivious : ∀ items : List Value, Oblivious (compileItems items)
  | [] => .pure _
  | v :: rest =>
    (compile_oblivious v).bind fun _ => (compileItems_oblivious rest).bind fun _ => .pure _

theorem compileEntries_oblivious :
    ∀ entries : List (Scalar × Value), Oblivious (compileEntries entries)
  | [] => .pure _
  | (_, v) :: rest =>
    (compile_oblivious v).bind fun _ => (compileEntries_oblivious rest).bind fun _ => .pure _

end

theorem compileRecord_oblivious (raw : Value) : Oblivious (compileRecord raw) := by
  unfold compileRecord
  split
  · exact compileEntries_oblivious _
  · split
    · exact .throw _
    · exact .pure _

end Binding

end Switchyard
