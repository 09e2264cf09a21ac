import DynImp.Proofs.Eval.Faults
import DynImp.Typing.Expr

/-!
# Tags

Which values a static type allows, and what operators and built-in functions make of
values that the types of their operands allow.  Within the types of the checker no operator
meets a value that it does not work on, with one exception: an integer to a negative power
is a decimal, and the checker takes it for an integer.
-/

namespace DynImp

/-! ## §1 Tags of types -/

/-- **Allowed tags.** The kinds of values that a type stands for. -/
def Ty.allows : Ty → Value.Tag → Bool
  | .any, _ => true
  | .comparable, tag =>
    tag = .integer ∨ tag = .decimal ∨ tag = .character ∨ tag = .string
  | .nil, tag => tag = .nil
  | .boolean, tag => tag = .boolean
  | .integer, tag => tag = .integer
  | .decimal, tag => tag = .decimal
  | .character, tag => tag = .character
  | .string, tag => tag = .string
  | .list _, tag => tag = .list

theorem Ty.allows_ofScalar (s : Scalar) :
    (Ty.ofScalar s).allows (Value.scalar s).tag = true := by
  cases s <;> rfl

theorem Ty.allows_of_accepts {τ σ : Ty} {tag : Value.Tag} (h : τ.accepts σ = true)
    (htag : σ.allows tag = true) : τ.allows tag = true := by
  cases τ with
  | any => rfl
  | comparable => cases σ <;> simp_all [Ty.accepts, Ty.isOrdered, Ty.allows]
  | nil | boolean | integer | decimal | character | string | list =>
      simp only [Ty.accepts, decide_eq_true_eq] at h
      rw [h]
      exact htag

/-- The only numeric type of an integer. -/
theorem Ty.eq_integer {τ : Ty} (hnumeric : τ.isNumeric = true)
    (h : τ.allows .integer = true) : τ = .integer := by
  cases τ <;> simp_all [Ty.isNumeric, Ty.allows]

namespace Value

variable {v : Value}

theorem eq_boolean (h : Ty.boolean.allows v.tag = true) : ∃ b, v = .boolean b := by
  rcases v with ⟨_ | _ | _ | _ | _ | _⟩ | _ <;> simp_all [Ty.allows, tag]

theorem eq_integer (h : Ty.integer.allows v.tag = true) : ∃ i, v = .integer i := by
  rcases v with ⟨_ | _ | _ | _ | _ | _⟩ | _ <;> simp_all [Ty.allows, tag]

theorem eq_decimal (h : Ty.decimal.allows v.tag = true) : ∃ d, v = .decimal d := by
  rcases v with ⟨_ | _ | _ | _ | _ | _⟩ | _ <;> simp_all [Ty.allows, tag]

theorem eq_character (h : Ty.character.allows v.tag = true) :
    ∃ c, v = .scalar (.character c) := by
  rcases v with ⟨_ | _ | _ | _ | _ | _⟩ | _ <;> simp_all [Ty.allows, tag]

theorem eq_string (h : Ty.string.allows v.tag = true) : ∃ s, v = .string s := by
  rcases v with ⟨_ | _ | _ | _ | _ | _⟩ | _ <;> simp_all [Ty.allows, tag]

theorem eq_list {τ : Ty} (h : (Ty.list τ).allows v.tag = true) : ∃ id, v = .list id := by
  rcases v with ⟨_ | _ | _ | _ | _ | _⟩ | _ <;> simp_all [Ty.allows, tag]

end Value

namespace Eval

/-! ## §2 Operators -/

/-- The faults that checked programs may end with. -/
def Fault.Ordinary : Fault → Prop
  | divisionByZero | indexOutOfBounds _ _ | cyclicList | exponentTooLarge _ | noLogarithm _
  | invalidBase _ | output _ => True
  | _ => False

/-- An outcome that is a scalar of a type, or an ordinary fault. -/
def Outcome.Yields (τ : Ty) : Outcome Fault Value → Prop
  | .done v => ∃ s, v = .scalar s ∧ τ.allows v.tag = true
  | .failed e => e.Ordinary
  | .unfinished => True

theorem yields_ask {α : Type} {τ : Ty} {question : Heap → Option α} {f : α → Scalar} {w : World}
    (h : ∀ a, τ.allows (Value.scalar (f a)).tag = true) :
    ((World.ask question >>= fun a => pure (.scalar (f a))) w).1.Yields τ := by
  rw [Run.bind_apply]
  unfold World.ask
  cases hq : question w.heap with
  | none => exact trivial
  | some a => exact ⟨f a, rfl, h a⟩

private theorem order_typed {τ : Ty} {a b : Value} (hordered : τ.isOrdered = true)
    (ha : τ.allows a.tag = true) (hb : τ.allows b.tag = true) : ∃ o, order a b = .ok o := by
  cases τ with
  | integer =>
      obtain ⟨i, rfl⟩ := Value.eq_integer ha
      obtain ⟨j, rfl⟩ := Value.eq_integer hb
      exact ⟨_, rfl⟩
  | decimal =>
      obtain ⟨d, rfl⟩ := Value.eq_decimal ha
      obtain ⟨e, rfl⟩ := Value.eq_decimal hb
      exact ⟨_, rfl⟩
  | character =>
      obtain ⟨c, rfl⟩ := Value.eq_character ha
      obtain ⟨d, rfl⟩ := Value.eq_character hb
      exact ⟨_, rfl⟩
  | string =>
      obtain ⟨s, rfl⟩ := Value.eq_string ha
      obtain ⟨t, rfl⟩ := Value.eq_string hb
      exact ⟨_, rfl⟩
  | any | comparable | nil | boolean | list => cases hordered

/-- Numbers of one type are numbers of one kind. -/
private theorem numeric_typed {τ : Ty} {a b : Value} (hnumeric : τ.isNumeric = true)
    (ha : τ.allows a.tag = true) (hb : τ.allows b.tag = true) :
    (∃ i j, τ = .integer ∧ a = .integer i ∧ b = .integer j) ∨
      ∃ d e, τ = .decimal ∧ a = .decimal d ∧ b = .decimal e := by
  cases τ with
  | integer =>
      obtain ⟨i, rfl⟩ := Value.eq_integer ha
      obtain ⟨j, rfl⟩ := Value.eq_integer hb
      exact Or.inl ⟨i, j, rfl, rfl, rfl⟩
  | decimal =>
      obtain ⟨d, rfl⟩ := Value.eq_decimal ha
      obtain ⟨e, rfl⟩ := Value.eq_decimal hb
      exact Or.inr ⟨d, e, rfl, rfl, rfl⟩
  | any | comparable | nil | boolean | character | string | list => cases hnumeric

private theorem add_typed {left right τ : Ty} {a b : Value} {w : World}
    (hop : Typing.operatorType? .add left right = some τ) (ha : left.allows a.tag = true)
    (hb : right.allows b.tag = true) : (add a b w).1.Yields τ := by
  simp only [Typing.operatorType?] at hop
  split at hop
  · next hstring =>
      cases hop
      -- The text of the other operand is asked for, whatever it is.
      rcases hstring with rfl | rfl
      · obtain ⟨s, rfl⟩ := Value.eq_string ha
        unfold add
        exact yields_ask fun _ => rfl
      · obtain ⟨t, rfl⟩ := Value.eq_string hb
        rcases a with ⟨_ | _ | _ | _ | _ | _⟩ | _ <;> exact yields_ask fun _ => rfl
  · split at hop
    · next hnumeric =>
        cases hop
        obtain ⟨hnumeric, rfl⟩ := hnumeric
        rcases numeric_typed hnumeric ha hb with ⟨i, j, rfl, rfl, rfl⟩ | ⟨d, e, rfl, rfl, rfl⟩
        · exact ⟨_, rfl, rfl⟩
        · exact ⟨_, rfl, rfl⟩
    · cases hop

private theorem invert_typed (d : Decimal) (w : World) :
    (Run.ofExcept (invert d) w).1.Yields .decimal := by
  unfold invert
  split
  · exact trivial
  · exact ⟨_, rfl, rfl⟩

private theorem divide_typed {τ : Ty} {a b : Value} {w : World} (hnumeric : τ.isNumeric = true)
    (ha : τ.allows a.tag = true) (hb : τ.allows b.tag = true) :
    (Run.ofExcept (divide a b) w).1.Yields τ := by
  rcases numeric_typed hnumeric ha hb with ⟨i, j, rfl, rfl, rfl⟩ | ⟨d, e, rfl, rfl, rfl⟩
  · simp only [divide]
    split
    · exact trivial
    · exact ⟨_, rfl, rfl⟩
  · simp only [divide]
    split
    · exact trivial
    · exact ⟨_, rfl, rfl⟩

private theorem power_typed {τ : Ty} {a b : Value} {w : World} (hnumeric : τ.isNumeric = true)
    (ha : τ.allows a.tag = true) (hb : Ty.integer.allows b.tag = true)
    (hexponent : ∀ i j, a = .integer i → b = .integer j → 0 ≤ j) :
    (Run.ofExcept (power a b) w).1.Yields τ := by
  obtain ⟨j, rfl⟩ := Value.eq_integer hb
  cases τ with
  | integer =>
      obtain ⟨i, rfl⟩ := Value.eq_integer ha
      have hj := hexponent i j rfl rfl
      -- Without an inversion the power of an integer is an integer.
      simp only [power, if_neg (Int.not_lt.mpr hj)]
      split
      · exact trivial
      · exact ⟨_, rfl, rfl⟩
  | decimal =>
      obtain ⟨d, rfl⟩ := Value.eq_decimal ha
      simp only [power]
      split
      · exact trivial
      · split
        · exact invert_typed _ w
        · exact ⟨_, rfl, rfl⟩
  | any | comparable | nil | boolean | character | string | list => cases hnumeric

/-- **Operators are typed.** Operands of the right types have a result of the type that the checker
expects, or an ordinary fault, unless an integer is raised to a negative power. -/
theorem apply_typed {op : BinaryOp} {left right τ : Ty} {a b : Value} {w : World}
    (hand : op ≠ .and) (hor : op ≠ .or) (hop : Typing.operatorType? op left right = some τ)
    (ha : left.allows a.tag = true) (hb : right.allows b.tag = true)
    (hexponent : op = .power → ∀ i j, a = .integer i → b = .integer j → 0 ≤ j) :
    (apply op a b w).1.Yields τ := by
  cases op with
  | and => exact (hand rfl).elim
  | or => exact (hor rfl).elim
  | equal | notEqual =>
      simp only [Typing.operatorType?] at hop
      split at hop <;> cases hop
      exact yields_ask fun _ => rfl
  | less | greater =>
      simp only [Typing.operatorType?] at hop
      split at hop
      · next hordered =>
          cases hop
          obtain ⟨hordered, rfl⟩ := hordered
          obtain ⟨o, ho⟩ := order_typed hordered ha hb
          simp only [apply, ho]
          exact ⟨_, rfl, rfl⟩
      · cases hop
  | add => exact add_typed hop ha hb
  | subtract | multiply =>
      simp only [Typing.operatorType?] at hop
      split at hop
      · next hnumeric =>
          cases hop
          obtain ⟨hnumeric, rfl⟩ := hnumeric
          rcases numeric_typed hnumeric ha hb with ⟨i, j, rfl, rfl, rfl⟩ | ⟨d, e, rfl, rfl, rfl⟩
          · exact ⟨_, rfl, rfl⟩
          · exact ⟨_, rfl, rfl⟩
      · cases hop
  | divide =>
      simp only [Typing.operatorType?] at hop
      split at hop
      · next hnumeric =>
          cases hop
          obtain ⟨hnumeric, rfl⟩ := hnumeric
          exact divide_typed hnumeric ha hb
      · cases hop
  | power =>
      simp only [Typing.operatorType?] at hop
      split at hop
      · next hnumeric =>
          cases hop
          obtain ⟨hnumeric, rfl⟩ := hnumeric
          exact power_typed hnumeric ha hb (hexponent rfl)
      · cases hop

/-! ## §3 Built-in functions -/

theorem log_typed {v : Value} {w : World} (hv : Ty.decimal.allows v.tag = true) :
    (Run.ofExcept (log v) w).1.Yields .decimal := by
  obtain ⟨x, rfl⟩ := Value.eq_decimal hv
  simp only [log]
  split
  · exact ⟨_, rfl, rfl⟩
  · exact trivial

theorem converter_typed {number base : Value} {w : World}
    (hnumber : Ty.integer.allows number.tag = true) (hbase : Ty.integer.allows base.tag = true) :
    (Run.ofExcept (converter number base) w).1.Yields .string := by
  obtain ⟨i, rfl⟩ := Value.eq_integer hnumber
  obtain ⟨b, rfl⟩ := Value.eq_integer hbase
  simp only [converter]
  split
  · exact ⟨_, rfl, rfl⟩
  · exact trivial

end Eval

end DynImp
