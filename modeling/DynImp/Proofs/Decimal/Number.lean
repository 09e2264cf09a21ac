import DynImp.Decimal.Arithmetic
import Mathlib.Algebra.Order.Field.Rat
import Mathlib.Tactic.FieldSimp
import Mathlib.Tactic.Positivity
import Mathlib.Tactic.Ring

/-!
# Decimals as numbers

What number a decimal stands for, whatever its scale, that decimals are ordered as these
numbers are, and that products are products of them.
-/

namespace DynImp

namespace Decimal

/-- The number that a decimal stands for. -/
def toRat (d : Decimal) : ℚ := d.unscaled * 10 ^ (-d.scale)

variable {d : Decimal}

theorem isZero_iff : d.isZero = true ↔ d.unscaled = 0 := by simp [isZero]

theorem toRat_eq_zero : d.toRat = 0 ↔ d.isZero = true := by
  rw [isZero_iff, toRat, mul_eq_zero, Int.cast_eq_zero]
  simp [zpow_ne_zero]

/-- A number moved by as many places as a scale has. -/
theorem toRat_mul_zpow (d : Decimal) (scale : ℤ) :
    d.toRat * 10 ^ scale = d.unscaled * 10 ^ (scale - d.scale) := by
  rw [toRat, mul_assoc, ← zpow_add₀ (by norm_num), neg_add_eq_sub]

/-- Powers of ten, as they are computed. -/
theorem cast_pow_toNat {k : ℤ} (hk : 0 ≤ k) : ((Nat.pow 10 k.toNat : ℕ) : ℚ) = 10 ^ k := by
  rw [Nat.pow_eq, Nat.cast_pow, Nat.cast_ofNat, ← zpow_natCast, Int.toNat_of_nonneg hk]

/-- The integer at a scale not below its own is the number moved by as many places. -/
theorem cast_unscaledAt {scale : ℤ} (h : d.scale ≤ scale) :
    ((d.unscaledAt scale : ℤ) : ℚ) = d.toRat * 10 ^ scale := by
  rw [toRat_mul_zpow, unscaledAt, shifted_eq, Int.cast_mul, Int.cast_natCast,
    cast_pow_toNat (by omega)]

/-- **Decimals are ordered as numbers**, at whatever scales they are. -/
theorem compare_eq_compare_toRat (a b : Decimal) :
    a.compare b = Ord.compare a.toRat b.toRat := by
  have hpower : (0 : ℚ) < 10 ^ commonScale a b := zpow_pos (by norm_num) _
  have ha : ((a.unscaledAt (commonScale a b) : ℤ) : ℚ) = a.toRat * 10 ^ commonScale a b :=
    cast_unscaledAt (Int.le_max_left _ _)
  have hb : ((b.unscaledAt (commonScale a b) : ℤ) : ℚ) = b.toRat * 10 ^ commonScale a b :=
    cast_unscaledAt (Int.le_max_right _ _)
  rw [compare_eq]
  rcases lt_trichotomy a.toRat b.toRat with hlt | heq | hgt
  · have : a.unscaledAt (commonScale a b) < b.unscaledAt (commonScale a b) := by
      rw [← Int.cast_lt (R := ℚ), ha, hb]
      exact mul_lt_mul_of_pos_right hlt hpower
    rw [compare_lt_iff_lt.mpr hlt, Int.compare_eq_lt.mpr this]
  · have : a.unscaledAt (commonScale a b) = b.unscaledAt (commonScale a b) := by
      rw [← Int.cast_inj (α := ℚ), ha, hb, heq]
    rw [compare_eq_iff_eq.mpr heq, Int.compare_eq_eq.mpr this]
  · have : b.unscaledAt (commonScale a b) < a.unscaledAt (commonScale a b) := by
      rw [← Int.cast_lt (R := ℚ), ha, hb]
      exact mul_lt_mul_of_pos_right hgt hpower
    rw [compare_gt_iff_gt.mpr hgt, Int.compare_eq_gt.mpr this]

theorem sameNumber_iff (a b : Decimal) : a.sameNumber b = true ↔ a.toRat = b.toRat := by
  rw [sameNumber, decide_eq_true_eq, compare_eq_compare_toRat, compare_eq_iff_eq]

theorem toRat_of_isUnit (h : d.isUnit = true) : d.toRat = 1 := by
  simp only [isUnit, decide_eq_true_eq] at h
  obtain ⟨hscale, -, hunscaled⟩ := h
  rw [toRat, hunscaled, Int.cast_natCast, cast_pow_toNat hscale, ← zpow_add₀ (by norm_num),
    add_neg_cancel, zpow_zero]

theorem toRat_times (a b : Decimal) : (a.times b).toRat = a.toRat * b.toRat := by
  rw [toRat, toRat, toRat, times, neg_add, zpow_add₀ (by norm_num), Int.cast_mul,
    mul_mul_mul_comm]

/-- What is stripped from a number are its trailing zeros. -/
theorem stripZeros_spec (n : ℕ) : (stripZeros n).1 * 10 ^ (stripZeros n).2 = n := by
  fun_induction stripZeros n with
  | case1 n h m zeros hrest ih =>
      rw [hrest] at ih
      rw [pow_succ, ← mul_assoc, ih]
      omega
  | case2 n h => simp

/-- The shortest form is the same number. -/
theorem toRat_normalized (d : Decimal) : d.normalized.toRat = d.toRat := by
  unfold normalized
  split
  next hzero => rw [toRat_eq_zero.mpr hzero, toRat_eq_zero.mpr rfl]
  next =>
    have hstrip := stripZeros_spec d.unscaled.natAbs
    obtain ⟨m, zeros, hpair⟩ : ∃ m zeros, stripZeros d.unscaled.natAbs = (m, zeros) := ⟨_, _, rfl⟩
    rw [hpair] at hstrip ⊢
    have hunscaled : (d.unscaled : ℚ) = (d.unscaled.sign * m : ℤ) * 10 ^ (zeros : ℤ) :=
      calc (d.unscaled : ℚ) = (d.unscaled.sign * (m * 10 ^ zeros : ℕ) : ℤ) := by
            rw [hstrip, Int.sign_mul_natAbs]
        _ = (d.unscaled.sign * m : ℤ) * 10 ^ (zeros : ℤ) := by
            push_cast
            rw [zpow_natCast, mul_assoc]
    dsimp only
    rw [toRat, toRat, hunscaled, mul_assoc, ← zpow_add₀ (by norm_num)]
    congr 2
    ring

/-- **A product is the product of the numbers.** -/
theorem toRat_mul (a b : Decimal) : (a.mul b).toRat = a.toRat * b.toRat := by
  unfold mul
  split
  next hunit => rw [toRat_normalized, toRat_of_isUnit hunit, one_mul]
  next =>
    split
    next hunit => rw [toRat_normalized, toRat_of_isUnit hunit, mul_one]
    next => exact toRat_times a b

end Decimal

end DynImp
