import DynImp.Eval.Builtin
import DynImp.Eval.Operators

/-!
# Computations that leave the world as it is

Operators and the built-in functions other than `print` answer from the world and do not
change it.  Their answers are scalars: no operator makes a list.
-/

namespace DynImp

namespace Eval

/-- **Still computations.** The state afterwards is the one before, whatever the outcome. -/
def Run.Still {σ α : Type} (x : Run σ α) : Prop := ∀ s, (x s).2 = s

namespace Run.Still

variable {σ α β : Type}

theorem pure (a : α) : Still (Pure.pure a : Run σ α) := fun _ => rfl

theorem fail (e : Fault) : Still (Run.fail e : Run σ α) := fun _ => rfl

theorem ofExcept (r : Except Fault α) : Still (Run.ofExcept r : Run σ α) := by
  intro s
  cases r <;> rfl

theorem ask (question : Heap → Option α) : Still (World.ask question) := by
  intro w
  unfold World.ask
  split <;> rfl

theorem bind {x : Run σ α} {f : α → Run σ β} (hx : Still x) (hf : ∀ a, Still (f a)) :
    Still (x >>= f) := by
  intro s
  have hs := hx s
  rw [Run.bind_apply]
  split
  · next a s' h => rw [h] at hs; exact (hf a s').trans hs
  · next e s' h => rw [h] at hs; exact hs
  · next s' h => rw [h] at hs; exact hs

end Run.Still

/-- The parts of a computation that ends with a value. -/
theorem Run.bind_done {σ α β : Type} {x : Run σ α} {f : α → Run σ β} {s : σ} {b : β}
    (h : ((x >>= f) s).1 = .done b) :
    ∃ a, (x s).1 = .done a ∧ (f a (x s).2).1 = .done b := by
  rw [Run.bind_apply] at h
  cases hx : x s with
  | mk outcome s' =>
      rw [hx] at h
      cases outcome with
      | done a => exact ⟨a, rfl, h⟩
      | failed e => cases h
      | unfinished => cases h

theorem Run.ofExcept_done {σ α : Type} {r : Except Fault α} {s : σ} {a : α}
    (h : ((Run.ofExcept r : Run σ α) s).1 = .done a) : r = .ok a := by
  cases r <;> cases h
  rfl

theorem Run.ofExcept_failed {σ α : Type} {r : Except Fault α} {s : σ} {e : Fault}
    (h : ((Run.ofExcept r : Run σ α) s).1 = .failed e) : r = .error e := by
  cases r <;> cases h
  rfl

theorem Run.ask_done {α : Type} {question : Heap → Option α} {w : World} {a : α}
    (h : (World.ask question w).1 = .done a) : question w.heap = some a := by
  unfold World.ask at h
  split at h
  · next hquestion => cases h; exact hquestion
  · cases h

theorem Run.ask_ne_failed {α : Type} {question : Heap → Option α} {w : World} {e : Fault} :
    (World.ask question w).1 ≠ .failed e := by
  unfold World.ask
  split <;> exact nofun

/-! ### Output -/

@[simp] theorem World.emit_heap (text : String) (w : World) : (emit text w).2.heap = w.heap := by
  obtain ⟨heap, cells, written, broken⟩ := w
  cases broken <;> rfl

@[simp] theorem World.emit_cells (text : String) (w : World) :
    (emit text w).2.cells = w.cells := by
  obtain ⟨heap, cells, written, broken⟩ := w
  cases broken <;> rfl

/-! ### Operators -/

theorem add_still (a b : Value) : (add a b).Still := by
  unfold add
  split
  · exact .bind (.ask _) fun _ => .pure _
  · exact .bind (.ask _) fun _ => .pure _
  · exact .pure _
  · exact .pure _
  · exact .fail _

theorem apply_still (op : BinaryOp) (a b : Value) : (apply op a b).Still := by
  cases op with
  | and | or => exact .fail _
  | less | greater => exact .bind (.ofExcept _) fun _ => .pure _
  | equal | notEqual => exact .bind (.ask _) fun _ => .pure _
  | add => exact add_still a b
  | subtract | multiply | divide | power => exact .ofExcept _

/-! ## §1 Scalars -/

/-- The value of a computation, if there is one, is a scalar. -/
def Run.GivesScalar {σ : Type} (x : Run σ Value) : Prop :=
  ∀ s v, (x s).1 = .done v → ∃ t, v = .scalar t

namespace Run.GivesScalar

variable {σ α : Type}

theorem pure (t : Scalar) : GivesScalar (Pure.pure (.scalar t) : Run σ Value) := by
  intro s v h
  cases h
  exact ⟨t, rfl⟩

theorem fail (e : Fault) : GivesScalar (Run.fail e : Run σ Value) := fun _ _ h => by cases h

theorem bind {x : Run σ α} {f : α → Run σ Value} (hf : ∀ a, GivesScalar (f a)) :
    GivesScalar (x >>= f) := by
  intro s v h
  obtain ⟨a, -, h⟩ := Run.bind_done h
  exact hf a _ v h

theorem ofExcept {r : Except Fault Value} (hr : ∀ v, r = .ok v → ∃ t, v = .scalar t) :
    GivesScalar (Run.ofExcept r : Run σ Value) := by
  intro s v h
  cases r with
  | ok u => cases h; exact hr v rfl
  | error e => cases h

end Run.GivesScalar

private theorem invert_scalar {d : Decimal} {v : Value} (h : invert d = .ok v) :
    ∃ t, v = .scalar t := by
  unfold invert at h
  split at h <;> cases h
  exact ⟨_, rfl⟩

private theorem power_scalar {a b v : Value} (h : power a b = .ok v) : ∃ t, v = .scalar t := by
  unfold power at h
  -- Either the power itself is the result, or its inverse.
  split at h
  · split at h
    · cases h
    · split at h
      · split at h
        · exact invert_scalar h
        · cases h
          exact ⟨_, rfl⟩
      · split at h
        · exact invert_scalar h
        · cases h
          exact ⟨_, rfl⟩
      · cases h
  · cases h

theorem apply_scalar (op : BinaryOp) (a b : Value) : (apply op a b).GivesScalar := by
  cases op with
  | and | or => exact .fail _
  | less | greater | equal | notEqual => exact .bind fun _ => .pure _
  | add =>
      change (add a b).GivesScalar
      unfold add
      split
      · exact .bind fun _ => .pure _
      · exact .bind fun _ => .pure _
      · exact .pure _
      · exact .pure _
      · exact .fail _
  | subtract =>
      refine .ofExcept fun v h => ?_
      unfold subtract at h
      split at h <;> cases h <;> exact ⟨_, rfl⟩
  | multiply =>
      refine .ofExcept fun v h => ?_
      unfold multiply at h
      split at h <;> cases h <;> exact ⟨_, rfl⟩
  | divide =>
      refine .ofExcept fun v h => ?_
      unfold divide at h
      split at h
      · split at h <;> cases h
        exact ⟨_, rfl⟩
      · split at h <;> cases h
        exact ⟨_, rfl⟩
      · cases h
  | power => exact .ofExcept fun v h => power_scalar h

end Eval

end DynImp
