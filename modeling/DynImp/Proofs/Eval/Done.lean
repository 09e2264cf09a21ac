import DynImp.Eval.Exec

/-!
# Computations that end with a value

When a computation that is put together from others ends with a value, and in which state:
when all its parts do, one after the other.
-/

namespace DynImp

namespace Eval

namespace Run

variable {σ α β : Type} {ν : Notes}

theorem bind_eq_done {x : Run σ α} {f : α → Run σ β} {s s'' : σ} {b : β} :
    (x >>= f) s = (.done b, s'') ↔ ∃ a s', x s = (.done a, s') ∧ f a s' = (.done b, s'') := by
  rw [bind_apply]
  rcases hx : x s with ⟨_ | _ | _, s'⟩
  case done a =>
    constructor
    · intro hf
      exact ⟨a, s', rfl, hf⟩
    · rintro ⟨_, _, ⟨⟩, hf⟩
      exact hf
  all_goals exact iff_of_false nofun (by rintro ⟨_, _, h, -⟩; cases h)

theorem pure_eq_done {a b : α} {s s' : σ} :
    (pure a : Run σ α) s = (.done b, s') ↔ a = b ∧ s = s' := by
  rw [pure_apply, Prod.mk.injEq, Outcome.done.injEq]

theorem inWorld_eq_done {x : RuntimeScope ν → Run World α} {m m' : Machine ν} {a : α} :
    Machine.inWorld x m = (.done a, m') ↔
      ∃ w, x m.scope m.world = (.done a, w) ∧ m' = ⟨m.scope, w⟩ := by
  change ((x m.scope m.world).1, _) = _ ↔ _
  rw [Prod.mk.injEq]
  constructor
  · rintro ⟨ha, rfl⟩
    exact ⟨_, Prod.ext ha rfl, rfl⟩
  · rintro ⟨w, hx, rfl⟩
    exact ⟨congrArg Prod.fst hx, by rw [hx]⟩

theorem inBlock_eq_done {x : Run (Machine ν) α} {m m' : Machine ν} {a : α} :
    Machine.inBlock x m = (.done a, m') ↔
      ∃ inner, x ⟨m.scope.push, m.world⟩ = (.done a, inner) ∧ m' = ⟨m.scope, inner.world⟩ := by
  change ((x _).1, _) = _ ↔ _
  rw [Prod.mk.injEq]
  constructor
  · rintro ⟨ha, rfl⟩
    exact ⟨_, Prod.ext ha rfl, rfl⟩
  · rintro ⟨inner, hx, rfl⟩
    exact ⟨congrArg Prod.fst hx, by rw [hx]⟩

theorem within_eq_done {scope : RuntimeScope ν} {x : Run (Machine ν) α} {w w' : World} {a : α} :
    Machine.within scope x w = (.done a, w') ↔
      ∃ inner, x ⟨scope, w⟩ = (.done a, inner) ∧ w' = inner.world := by
  change ((x _).1, _) = _ ↔ _
  rw [Prod.mk.injEq]
  constructor
  · rintro ⟨ha, rfl⟩
    exact ⟨_, Prod.ext ha rfl, rfl⟩
  · rintro ⟨inner, hx, rfl⟩
    exact ⟨congrArg Prod.fst hx, by rw [hx]⟩

end Run

end Eval

end DynImp
