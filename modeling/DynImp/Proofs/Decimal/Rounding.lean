import DynImp.Proofs.Decimal.Number
import Mathlib.Algebra.Order.Ring.Abs
import Mathlib.Tactic.Linarith

/-!
# Rounding half to even

What it means that an integer is a number rounded, apart from how it is computed: it is at
most a half away, and at just a half it is the even one of the two.  There is one such
integer.  `Decimal.rescale` rounds the number that a decimal stands for in this sense.
-/

namespace DynImp

/-! ## §1 Integers -/

/-- **Rounded half to even.** -/
structure RoundsHalfEven (x : ℚ) (n : ℤ) : Prop where
  near : |x - n| ≤ 1 / 2
  /-- Between two neighbours the even one is taken. -/
  even : |x - n| = 1 / 2 → Even n

namespace RoundsHalfEven

variable {x : ℚ} {n n' : ℤ}

theorem intCast (n : ℤ) : RoundsHalfEven n n := by constructor <;> simp

theorem neg (h : RoundsHalfEven x n) : RoundsHalfEven (-x) (-n) := by
  have habs : |(-x) - ((-n : ℤ) : ℚ)| = |x - n| := by
    rw [Int.cast_neg, ← neg_sub', abs_neg]
  refine ⟨?_, ?_⟩
  · rw [habs]
    exact h.near
  · rw [habs, even_neg]
    exact h.even

/-- Rounding does not depend on the sign. -/
theorem sign_mul {n : ℤ} {m : ℕ} (h : RoundsHalfEven x m) (hzero : n = 0 → m = 0) :
    RoundsHalfEven (n.sign * x) (n.sign * m) := by
  rcases lt_trichotomy n 0 with hn | rfl | hn
  · simpa [Int.sign_eq_neg_one_of_neg hn] using h.neg
  · simpa using intCast 0
  · simpa [Int.sign_eq_one_of_pos hn] using h

/-- **There is only one.** -/
theorem unique (h : RoundsHalfEven x n) (h' : RoundsHalfEven x n') : n = n' := by
  have htriangle : |((n - n' : ℤ) : ℚ)| ≤ |x - n| + |x - n'| := by
    have := abs_sub_le (n : ℚ) x n'
    rwa [abs_sub_comm (n : ℚ) x, ← Int.cast_sub] at this
  by_contra hne
  have hone : (1 : ℚ) ≤ |((n - n' : ℤ) : ℚ)| := by
    exact_mod_cast Int.one_le_abs (sub_ne_zero.mpr hne)
  have hle : |((n - n' : ℤ) : ℚ)| ≤ 1 := by linarith [h.near, h'.near]
  -- The number is between the two, so both are even; but they are neighbours.
  obtain ⟨a, rfl⟩ := h.even (le_antisymm h.near (by linarith [h'.near]))
  obtain ⟨b, rfl⟩ := h'.even (le_antisymm h'.near (by linarith [h.near]))
  have hclose : |a + a - (b + b)| ≤ 1 := by exact_mod_cast hle
  rw [abs_le] at hclose
  omega

end RoundsHalfEven

/-- The rounding of fractions is rounding half to even. -/
theorem Decimal.roundHalfEven_rounds (n : ℕ) {m : ℕ} (hm : 0 < m) :
    RoundsHalfEven (n / m) (roundHalfEven n m : ℕ) := by
  have hmq : (0 : ℚ) < m := by exact_mod_cast hm
  have hr : n % m < m := Nat.mod_lt n hm
  have hn : (n : ℚ) = m * (n / m : ℕ) + (n % m : ℕ) := by
    exact_mod_cast (Nat.div_add_mod n m).symm
  unfold roundHalfEven
  generalize n / m = q at *
  generalize n % m = r at *
  have hx : (n : ℚ) / m = q + r / m := by rw [hn, add_div, mul_div_cancel_left₀ _ hmq.ne']
  have hbelow : 2 * r < m → (r : ℚ) / m < 1 / 2 := by
    intro h
    rw [div_lt_div_iff₀ hmq two_pos, one_mul, mul_comm]
    exact_mod_cast h
  have habove : m < 2 * r → 1 / 2 < (r : ℚ) / m := by
    intro h
    rw [div_lt_div_iff₀ two_pos hmq, one_mul, mul_comm]
    exact_mod_cast h
  have htie : m = 2 * r → (r : ℚ) / m = 1 / 2 := by
    intro h
    rw [div_eq_div_iff hmq.ne' two_ne_zero, one_mul, mul_comm]
    exact_mod_cast h.symm
  split
  next hup =>
    have hdistance : |(n : ℚ) / m - ((q + 1 : ℕ) : ℤ)| = 1 - r / m := by
      have hle : (r : ℚ) / m ≤ 1 := by
        rw [div_le_one hmq]
        exact_mod_cast hr.le
      rw [hx, abs_of_nonpos] <;> push_cast <;> linarith
    constructor <;> rw [hdistance]
    · rcases hup with h | ⟨h, -⟩
      · linarith [habove h]
      · linarith [htie h]
    · intro hhalf
      rcases hup with h | ⟨-, hodd⟩
      · linarith [habove h]
      · exact_mod_cast Nat.even_iff.mpr (by omega)
  next hdown =>
    have hdistance : |(n : ℚ) / m - ((q : ℕ) : ℤ)| = r / m := by
      rw [hx, abs_of_nonneg] <;> push_cast <;> rw [add_sub_cancel_left]
      positivity
    constructor <;> rw [hdistance]
    · rcases (by omega : 2 * r < m ∨ m = 2 * r) with h | h
      · exact (hbelow h).le
      · exact (htie h).le
    · intro hhalf
      rcases (by omega : 2 * r < m ∨ m = 2 * r) with h | h
      · linarith [hbelow h]
      · exact_mod_cast Nat.even_iff.mpr (by omega)

/-! ## §2 Decimals -/

namespace Decimal

/-- **A number rounded to a scale**, half to even. -/
structure IsRounding (x : ℚ) (scale : ℤ) (d : Decimal) : Prop where
  scale_eq : d.scale = scale
  unscaled : RoundsHalfEven (x * 10 ^ scale) d.unscaled

theorem IsRounding.unique {x : ℚ} {scale : ℤ} {d d' : Decimal} (h : IsRounding x scale d)
    (h' : IsRounding x scale d') : d = d' := by
  obtain ⟨unscaled, _⟩ := d
  obtain ⟨unscaled', _⟩ := d'
  obtain ⟨rfl, hunscaled⟩ := h
  obtain ⟨rfl, hunscaled'⟩ := h'
  rw [mk.injEq]
  exact ⟨hunscaled.unique hunscaled', rfl⟩

/-- **Rescaling rounds.** -/
theorem rescale_isRounding (d : Decimal) (scale : ℤ) :
    IsRounding d.toRat scale (d.rescale scale) := by
  unfold rescale
  split
  next hle =>
    -- With more places nothing is lost.
    refine ⟨rfl, ?_⟩
    rw [← cast_unscaledAt hle]
    exact .intCast _
  next hgt =>
    refine ⟨rfl, ?_⟩
    have hplaces : 0 ≤ d.scale - scale := by omega
    have hpower : 0 < Nat.pow 10 (d.scale - scale).toNat := Nat.pow_pos (by decide)
    have hround := roundHalfEven_rounds d.unscaled.natAbs hpower
    rw [cast_pow_toNat hplaces] at hround
    have hx : d.toRat * 10 ^ scale =
        d.unscaled.sign * (d.unscaled.natAbs / 10 ^ (d.scale - scale)) := by
      rw [toRat_mul_zpow, ← mul_div_assoc, ← Int.cast_natCast, ← Int.cast_mul,
        Int.sign_mul_natAbs, ← neg_sub, zpow_neg, div_eq_mul_inv]
    rw [hx, dropPlaces_eq]
    refine hround.sign_mul ?_
    intro hzero
    rw [hzero, Int.natAbs_zero, roundHalfEven, Nat.zero_mod, Nat.zero_div]
    exact if_neg (by omega)

end Decimal

end DynImp
