import DynImp.Eval.Exec
import DynImp.Proofs.Eval.Still

/-!
# Faults of operators and built-in functions

Which faults an operation can end with, whatever its operands are.
-/

namespace DynImp

namespace Eval

/-! ## §1 Computations -/

/-- A computation fails, if it does, with a fault of which `P` holds. -/
def Run.FailsWith {σ α : Type} (P : Fault → Prop) (x : Run σ α) : Prop :=
  ∀ s e, (x s).1 = .failed e → P e

namespace Run.FailsWith

variable {σ α β : Type} {P Q : Fault → Prop}

theorem pure (a : α) : FailsWith P (Pure.pure a : Run σ α) := fun _ _ h => by cases h

theorem fail {e : Fault} (he : P e) : FailsWith P (Run.fail e : Run σ α) := by
  intro s e' h
  cases h
  exact he

theorem ofExcept {r : Except Fault α} (hr : ∀ e, r = .error e → P e) :
    FailsWith P (Run.ofExcept r : Run σ α) := by
  intro s e h
  cases r with
  | ok a => cases h
  | error e' => cases h; exact hr e rfl

theorem ask (question : Heap → Option α) : FailsWith P (World.ask question) :=
  fun _ _ h => (Run.ask_ne_failed h).elim

theorem bind {x : Run σ α} {f : α → Run σ β} (hx : FailsWith P x) (hf : ∀ a, FailsWith P (f a)) :
    FailsWith P (x >>= f) := by
  intro s e h
  rw [Run.bind_apply] at h
  -- The fault comes from the second part if the first has a value, and else from the first.
  split at h
  · next a s' _ => exact hf a s' e h
  · next e' s' hfail =>
      cases h
      exact hx s e (congrArg Prod.fst hfail)
  · cases h

theorem imp {x : Run σ α} (hx : FailsWith P x) (h : ∀ e, P e → Q e) : FailsWith Q x :=
  fun s e he => h e (hx s e he)

end Run.FailsWith

/-! ## §2 Operators -/

/-- The faults of operators. -/
def Fault.OfOperator : Fault → Prop
  | typeMismatch _ _ | divisionByZero | exponentTooLarge _ => True
  | _ => False

private theorem subtract_fault {a b : Value} {e : Fault} (h : subtract a b = .error e) :
    e.OfOperator := by
  unfold subtract at h
  split at h <;> cases h
  trivial

private theorem multiply_fault {a b : Value} {e : Fault} (h : multiply a b = .error e) :
    e.OfOperator := by
  unfold multiply at h
  split at h <;> cases h
  trivial

private theorem divide_fault {a b : Value} {e : Fault} (h : divide a b = .error e) :
    e.OfOperator := by
  unfold divide at h
  split at h
  · split at h <;> cases h
    trivial
  · split at h <;> cases h
    trivial
  · cases h
    trivial

theorem invert_fault {d : Decimal} {e : Fault} (h : invert d = .error e) : e = .divisionByZero := by
  unfold invert at h
  split at h <;> cases h
  rfl

private theorem power_fault {a b : Value} {e : Fault} (h : power a b = .error e) :
    e.OfOperator := by
  unfold power at h
  -- Too large an exponent, the inverse of zero, or operands that are no numbers.
  split at h
  · split at h
    · cases h
      trivial
    · split at h
      · split at h
        · rw [invert_fault h]
          trivial
        · cases h
      · split at h
        · rw [invert_fault h]
          trivial
        · cases h
      · cases h
        trivial
  · cases h
    trivial

private theorem order_fault {a b : Value} {e : Fault} (h : order a b = .error e) :
    e.OfOperator := by
  unfold order at h
  split at h
  · split at h <;> cases h
    trivial
  · cases h
    trivial

theorem apply_fails (op : BinaryOp) (a b : Value) : (apply op a b).FailsWith Fault.OfOperator := by
  cases op with
  | and | or => exact .fail trivial
  | less | greater => exact .bind (.ofExcept fun e h => order_fault h) fun _ => .pure _
  | equal | notEqual => exact .bind (.ask _) fun _ => .pure _
  | add =>
      change (add a b).FailsWith Fault.OfOperator
      unfold add
      split
      · exact .bind (.ask _) fun _ => .pure _
      · exact .bind (.ask _) fun _ => .pure _
      · exact .pure _
      · exact .pure _
      · exact .fail trivial
  | subtract => exact .ofExcept fun e h => subtract_fault h
  | multiply => exact .ofExcept fun e h => multiply_fault h
  | divide => exact .ofExcept fun e h => divide_fault h
  | power => exact .ofExcept fun e h => power_fault h

/-! ## §3 Built-in functions -/

/-- The faults of built-in functions that got as many arguments as they take. -/
def Fault.OfBuiltin : Fault → Prop
  | typeMismatch _ _ | noLogarithm _ | invalidBase _ | output _ => True
  | _ => False

theorem emit_fails (text : String) : (World.emit text).FailsWith fun e => ∃ r, e = .output r := by
  rintro ⟨heap, cells, written, broken⟩ e h
  cases broken with
  | none => cases h
  | some reason =>
      cases h
      exact ⟨reason, rfl⟩

theorem print_fails (v : Value) : (print v).FailsWith fun e => ∃ r, e = .output r :=
  .bind (.ask _) fun _ => .bind (emit_fails _) fun _ => .pure _

theorem callBuiltin_fails {b : Builtin} {args : List Value} (hlength : args.length = b.arity) :
    (callBuiltin b args).FailsWith Fault.OfBuiltin := by
  unfold callBuiltin
  split
  · exact (print_fails _).imp fun e ⟨r, he⟩ => by rw [he]; trivial
  · refine .ofExcept fun e h => ?_
    unfold log at h
    split at h
    · split at h <;> cases h
      trivial
    · cases h
      trivial
  · refine .ofExcept fun e h => ?_
    unfold converter at h
    split at h
    · split at h <;> cases h
      trivial
    · cases h
      trivial
  · next hprint hlog hconverter =>
      -- The three cases above are all there are with the right number of arguments.
      exfalso
      cases b with
      | print =>
          obtain ⟨v, rfl⟩ := List.length_eq_one_iff.mp hlength
          exact hprint v rfl rfl
      | log =>
          obtain ⟨v, rfl⟩ := List.length_eq_one_iff.mp hlength
          exact hlog v rfl rfl
      | converter =>
          match args, hlength with
          | [number, base], _ => exact hconverter number base rfl rfl

/-! ## §4 Lists -/

theorem position_ok {index : Int} {length place : Nat} (h : position index length = .ok place) :
    place < length := by
  unfold position at h
  split at h
  · cases h
    omega
  · cases h

theorem position_fault {index : Int} {length : Nat} {e : Fault}
    (h : position index length = .error e) : e = .indexOutOfBounds index length := by
  unfold position at h
  split at h <;> cases h
  rfl

theorem elementAt_still (id : ListId) (index : Int) : (elementAt id index).Still :=
  .bind (fun _ => rfl) fun _ => .bind (.ofExcept _) fun _ => .pure _

/-- A value that an element access yields is an element. -/
theorem elementAt_done {id : ListId} {index : Int} {w : World} {v : Value}
    (h : (elementAt id index w).1 = .done v) : v ∈ w.heap.items id := by
  obtain ⟨items, hitems, h⟩ := Run.bind_done h
  obtain ⟨place, hplace, h⟩ := Run.bind_done h
  cases hitems
  cases h
  have hlt := position_ok (Run.ofExcept_done hplace)
  rw [List.getD_eq_getElem?_getD, List.getElem?_eq_getElem hlt]
  exact List.getElem_mem hlt

theorem elementAt_fails (id : ListId) (index : Int) :
    (elementAt id index).FailsWith fun e => ∃ length, e = .indexOutOfBounds index length := by
  refine .bind (fun _ _ h => by cases h) fun items =>
    .bind (.ofExcept fun e h => ?_) fun _ => .pure _
  exact ⟨_, position_fault h⟩

theorem storeAt_fails (id : ListId) (index : Int) (v : Value) :
    (storeAt id index v).FailsWith fun e =>
      e = .cyclicList ∨ ∃ length, e = .indexOutOfBounds index length := by
  refine .bind (.ask _) fun cyclic => ?_
  cases cyclic with
  | true => exact .fail (Or.inl rfl)
  | false =>
      refine .bind (fun _ _ h => by cases h) fun items =>
        .bind (.ofExcept fun e h => ?_) fun _ _ _ h => by cases h
      exact Or.inr ⟨_, position_fault h⟩

end Eval

end DynImp
