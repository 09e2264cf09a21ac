import DynImp.Eval.Operators
import DynImp.Proofs.Decimal.Rounding
import DynImp.Proofs.Numeral
import Mathlib.Algebra.Order.Field.Power
import Mathlib.Tactic.NormNum

/-!
# Division of decimals

A quotient is found by long division.  If it does not come out even it has at least
`quotientDigits` significant digits, of which the last one is rounded; dividing then rounds
it once more, to the scale of the dividend.  Two roundings are not one: a quotient next to
the middle between two numbers of that scale may be rounded into the middle first.  It is
not as long as dividend and divisor together are short enough.
-/

namespace DynImp

/-- A number other than zero is not below the power that its first digit counts. -/
theorem Numeral.pow_length_digits_le {n : ℕ} (hn : n ≠ 0) :
    10 ^ ((digits 10 n).length - 1) ≤ n := by
  induction n using induct (by decide : 2 ≤ 10) with
  | small n h =>
      rw [digits_of_lt h]
      exact Nat.one_le_iff_ne_zero.mpr hn
  | large n h ih =>
      have hne : n / 10 ≠ 0 := Nat.ne_of_gt (Nat.div_pos h (by decide))
      obtain ⟨d, ds, hds, -⟩ := exists_digits (by decide : 2 ≤ 10) hne
      have hlength : (digits 10 n).length - 1 = (digits 10 (n / 10)).length - 1 + 1 := by
        rw [digits_of_le (by decide) h, hds]
        simp
      calc 10 ^ ((digits 10 n).length - 1)
          = 10 ^ ((digits 10 (n / 10)).length - 1) * 10 := by rw [hlength, pow_succ]
        _ ≤ n / 10 * 10 := Nat.mul_le_mul_right 10 (ih hne)
        _ ≤ n := Nat.div_mul_le_self n 10

namespace Decimal

/-! ## §1 Long division -/

/-- A number is raised by powers of ten until it is not below the divisor. -/
theorem raiseTo_spec (den : ℕ) {num : ℕ} (hnum : 0 < num) :
    ∃ raised places, raiseTo den num = (raised, places) ∧ raised = num * 10 ^ places ∧
      den ≤ raised := by
  fun_induction raiseTo den num with
  | case1 num h raised places hrec ih =>
      obtain ⟨_, _, hraise, hpower, hle⟩ := ih (by omega)
      rw [hrec] at hraise
      obtain ⟨rfl, rfl⟩ := Prod.mk.inj hraise
      refine ⟨raised, places + 1, rfl, ?_, hle⟩
      rw [hpower, pow_succ]
      ring
  | case2 num h => exact ⟨num, 0, rfl, by simp, by omega⟩

/-- **Long division** by a divisor leaves less than the divisor, and nothing if it ends before its
budget does.  Each place adds a digit to those found before. -/
theorem longDivision_spec {den : ℕ} (budget quotient : ℕ) {remainder : ℕ}
    (hremainder : remainder < den) :
    ∃ q r places, longDivision den budget quotient remainder = (q, r, places) ∧
      q * den + r = (quotient * den + remainder) * 10 ^ places ∧ r < den ∧
      quotient * 10 ^ places ≤ q ∧ (r ≠ 0 → places = budget) := by
  induction budget generalizing quotient remainder with
  | zero => exact ⟨quotient, remainder, 0, rfl, by simp, hremainder, by simp, fun _ => rfl⟩
  | succ budget ih =>
      rw [longDivision]
      split
      next hzero =>
        exact ⟨quotient, 0, 0, rfl, by simp [hzero], by omega, by simp, fun h => (h rfl).elim⟩
      next hne =>
        have hden : 0 < den := by omega
        obtain ⟨q, r, places, hrest, hspec, hr, hdigits, hbudget⟩ :=
          ih (10 * quotient + 10 * remainder / den) (Nat.mod_lt (10 * remainder) hden)
        refine ⟨q, r, places + 1, by rw [hrest], ?_, hr, ?_, fun h => by rw [hbudget h]⟩
        · -- One more digit is found; what remains is ten times as much, less that digit.
          have hstep : (10 * quotient + 10 * remainder / den) * den + 10 * remainder % den =
              (quotient * den + remainder) * 10 := by
            have := Nat.div_add_mod' (10 * remainder) den
            linarith
          rw [hspec, hstep, pow_succ]
          ring
        · calc quotient * 10 ^ (places + 1) = 10 * quotient * 10 ^ places := by ring
            _ ≤ (10 * quotient + 10 * remainder / den) * 10 ^ places :=
              Nat.mul_le_mul_right _ (Nat.le_add_right _ _)
            _ ≤ q := hdigits

/-- **The quotient of positive integers**, with its number of places: it is at most half a unit of
the last place away, and exact unless it has all the digits that it may have. -/
structure IsQuotient (num den q places : ℕ) : Prop where
  near : |(num : ℚ) / den * 10 ^ places - q| ≤ 1 / 2
  exact_or_long : (num : ℚ) / den * 10 ^ places = q ∨ 10 ^ (quotientDigits - 1) ≤ q

/-- The last digit is rounded up from a half on. -/
theorem near_of_remainder {den q r : ℕ} (hr : r < den) :
    |(q + r / den : ℚ) - (if 5 ≤ 10 * r / den then q + 1 else q : ℕ)| ≤ 1 / 2 := by
  have hden : 0 < den := by omega
  have hdenq : (0 : ℚ) < den := by exact_mod_cast hden
  have hdigit : 5 ≤ 10 * r / den ↔ den ≤ 2 * r := by
    rw [Nat.le_div_iff_mul_le hden]
    omega
  split
  next hup =>
    have hhalf : 1 / 2 ≤ (r : ℚ) / den := by
      rw [div_le_div_iff₀ two_pos hdenq, one_mul, mul_comm]
      exact_mod_cast hdigit.mp hup
    have hone : (r : ℚ) / den ≤ 1 := by
      rw [div_le_one hdenq]
      exact_mod_cast hr.le
    rw [abs_le]
    constructor <;> push_cast <;> linarith
  next hdown =>
    have hhalf : (r : ℚ) / den ≤ 1 / 2 := by
      rw [div_le_div_iff₀ hdenq two_pos, one_mul, mul_comm]
      exact_mod_cast (by omega : 2 * r ≤ den)
    rw [add_sub_cancel_left, abs_of_nonneg (by positivity)]
    exact hhalf

theorem quotientOf_isQuotient {num den : ℕ} (hnum : 0 < num) (hden : 0 < den) :
    IsQuotient num den (quotientOf num den).1 (quotientOf num den).2 := by
  obtain ⟨raised, shift, hraise, hraised, hle⟩ := raiseTo_spec den hnum
  have hwhole : raised / den ≠ 0 := Nat.ne_of_gt (Nat.div_pos hle hden)
  obtain ⟨q, r, places, hlong, hspec, hr, hdigits, hbudget⟩ := longDivision_spec
    (quotientDigits - (Numeral.digits 10 (raised / den)).length) (raised / den)
    (Nat.mod_lt raised hden)
  have hquotient : quotientOf num den =
      (if 5 ≤ 10 * r / den then q + 1 else q, shift + places) := by
    simp only [quotientOf, hraise, hlong]
  have hdenq : (0 : ℚ) < den := by exact_mod_cast hden
  have hx : (num : ℚ) / den * 10 ^ (shift + places) = q + r / den := by
    rw [Nat.div_add_mod', hraised, mul_assoc, ← pow_add] at hspec
    have hspecq : (q : ℚ) * den + r = num * 10 ^ (shift + places) := by exact_mod_cast hspec
    rw [div_mul_eq_mul_div, ← hspecq, add_div, mul_div_cancel_right₀ _ hdenq.ne']
  rw [hquotient]
  refine ⟨by rw [hx]; exact near_of_remainder hr, ?_⟩
  by_cases hzero : r = 0
  · left
    rw [hx, hzero]
    simp
  · right
    -- The whole part has its digits, and every place adds one.
    have hlong : 10 ^ (quotientDigits - 1) ≤ q :=
      calc 10 ^ (quotientDigits - 1)
          ≤ 10 ^ ((Numeral.digits 10 (raised / den)).length - 1 + places) := by
            refine Nat.pow_le_pow_right (by decide) ?_
            rw [hbudget hzero]
            omega
        _ ≤ raised / den * 10 ^ places := by
            rw [pow_add]
            exact Nat.mul_le_mul_right _ (Numeral.pow_length_digits_le hwhole)
        _ ≤ q := hdigits
    split <;> omega

/-! ## §2 Quotients -/

/-- The sign of a quotient of numbers other than zero. -/
theorem sign_mul_sign {m n : ℤ} (hm : m ≠ 0) (hn : n ≠ 0) :
    m.sign * n.sign = 1 ∨ m.sign * n.sign = -1 := by
  rcases lt_or_gt_of_ne hm with h | h <;> rcases lt_or_gt_of_ne hn with h' | h' <;>
    simp [Int.sign_eq_one_of_pos, Int.sign_eq_neg_one_of_neg, h, h']

/-- The sign of the divisor can be given to the dividend. -/
theorem cast_div_eq_div_natAbs (m n : ℤ) : (m : ℚ) / n = (m * n.sign : ℤ) / n.natAbs := by
  rw [← Int.cast_natCast n.natAbs]
  rcases lt_trichotomy n 0 with h | rfl | h
  · rw [Int.sign_eq_neg_one_of_neg h, Int.ofNat_natAbs_of_nonpos h.le, mul_neg_one, Int.cast_neg,
      Int.cast_neg, neg_div_neg_eq]
  · simp
  · rw [Int.sign_eq_one_of_pos h, Int.natAbs_of_nonneg h.le, mul_one]

/-- The sign can be put back last. -/
theorem cast_div_eq_sign (m n : ℤ) :
    (m : ℚ) / n = (m.sign * n.sign : ℤ) * ((m.natAbs : ℚ) / n.natAbs) := by
  rw [cast_div_eq_div_natAbs, ← mul_div_assoc, ← Int.cast_natCast m.natAbs, ← Int.cast_mul,
    mul_right_comm, Int.sign_mul_natAbs]

/-- The exact quotient, moved by as many places as the scales differ and some more. -/
theorem toRat_div_mul_zpow (a b : Decimal) (places : ℕ) :
    a.toRat / b.toRat * 10 ^ (a.scale - b.scale + places) =
      (a.unscaled : ℚ) / b.unscaled * 10 ^ places := by
  have hten : (10 : ℚ) ≠ 0 := by norm_num
  rw [toRat, toRat, mul_div_mul_comm, mul_assoc, ← zpow_sub₀ hten, ← zpow_add₀ hten, ← zpow_natCast]
  congr 2
  ring

/-- **Quotient.** It is the exact one, or as long as it may be and half a unit of its last place
away at most. -/
theorem quotient_near (a : Decimal) {b : Decimal} (hb : b.isZero = false) :
    (a.quotient b).toRat = a.toRat / b.toRat ∨
      10 ^ (quotientDigits - 1) ≤ (a.quotient b).unscaled.natAbs ∧
        |a.toRat / b.toRat * 10 ^ (a.quotient b).scale - (a.quotient b).unscaled| ≤ 1 / 2 := by
  have hb0 : b.unscaled ≠ 0 := by simpa [isZero] using hb
  have hten : (10 : ℚ) ≠ 0 := by norm_num
  unfold quotient
  split
  next h =>
    left
    rcases h with h | h
    · rw [toRat_eq_zero.mpr h, zero_div]
    · rw [toRat_of_isUnit h, div_one]
  next h =>
    split
    next heq =>
      left
      have hone := toRat_div_mul_zpow a b 0
      rw [heq, div_self (by exact_mod_cast hb0), Nat.cast_zero, add_zero, pow_zero, one_mul] at hone
      rw [toRat, Int.cast_one, one_mul, zpow_neg]
      exact (eq_inv_of_mul_eq_one_left hone).symm
    next hne =>
      have ha0 : a.unscaled ≠ 0 := fun h0 => h (.inl (isZero_iff.mpr h0))
      obtain ⟨hnear, hexact⟩ := quotientOf_isQuotient (Int.natAbs_pos.mpr ha0)
        (Int.natAbs_pos.mpr hb0)
      obtain ⟨q, places, hquotient⟩ : ∃ q places,
          quotientOf a.unscaled.natAbs b.unscaled.natAbs = (q, places) := ⟨_, _, rfl⟩
      rw [hquotient] at hnear hexact ⊢
      dsimp only at hnear hexact ⊢
      have hx := toRat_div_mul_zpow a b places
      rw [cast_div_eq_sign, mul_assoc] at hx
      have hsign := sign_mul_sign ha0 hb0
      generalize a.unscaled.sign * b.unscaled.sign = σ at hx hsign ⊢
      rcases hexact with hexact | hlong
      · left
        have hscale : (10 : ℚ) ^ (a.scale - b.scale + places) ≠ 0 := zpow_ne_zero _ hten
        refine mul_right_cancel₀ hscale ?_
        rw [hx, hexact, toRat_mul_zpow, sub_self, zpow_zero, mul_one, Int.cast_mul,
          Int.cast_natCast]
      · right
        have hunit : σ.natAbs = 1 ∧ |(σ : ℚ)| = 1 := by rcases hsign with rfl | rfl <;> simp
        rw [hx, Int.natAbs_mul, hunit.1, one_mul, Int.natAbs_natCast, Int.cast_mul,
          Int.cast_natCast, ← mul_sub, abs_mul, hunit.2, one_mul]
        exact ⟨hlong, hnear⟩

/-! ## §3 Two roundings -/

end Decimal

namespace RoundsHalfEven

variable {u v n : ℤ}

/-- **A second rounding is right** if the number that it starts from is closer to the fraction than
any half can be, unless the fraction is a half itself; then the two have to be the same. -/
theorem of_close {x : ℚ} (hv : 0 < v) (hn : RoundsHalfEven x n)
    (hclose : |(u : ℚ) / v - x| < 1 / (2 * v)) (htie : ∀ k : ℤ, (u : ℚ) / v = k / 2 → x = u / v) :
    RoundsHalfEven (u / v) n := by
  have hvq : (0 : ℚ) < v := by exact_mod_cast hv
  refine ⟨?_, ?_⟩
  · by_contra hfar
    rw [not_le] at hfar
    -- Distances of the fraction from halves are multiples of half a `v`-th.
    have hdistance : |(u : ℚ) / v - n| = (|2 * u - 2 * n * v| : ℤ) * (1 / (2 * v)) := by
      have hdiff : (u : ℚ) / v - n = (2 * u - 2 * n * v : ℤ) * (1 / (2 * v)) := by
        push_cast
        field_simp
      rw [hdiff, abs_mul, abs_of_pos (by positivity : (0 : ℚ) < 1 / (2 * v)), Int.cast_abs]
    have hmore : v + 1 ≤ |2 * u - 2 * n * v| := by
      rw [hdistance, mul_one_div, lt_div_iff₀ (by positivity)] at hfar
      have hlt : (v : ℚ) < (|2 * u - 2 * n * v| : ℤ) := by linarith
      exact_mod_cast hlt
    have hleast : 1 / 2 + 1 / (2 * v) ≤ |(u : ℚ) / v - n| :=
      calc (1 : ℚ) / 2 + 1 / (2 * v) = ((v + 1 : ℤ) : ℚ) * (1 / (2 * v)) := by
            push_cast
            field_simp
        _ ≤ (|2 * u - 2 * n * v| : ℤ) * (1 / (2 * v)) := by
            refine mul_le_mul_of_nonneg_right ?_ (by positivity)
            exact_mod_cast hmore
        _ = |(u : ℚ) / v - n| := hdistance.symm
    linarith [abs_sub_le ((u : ℚ) / v) x n, hn.near]
  · intro hhalf
    have hodd : ∃ k : ℤ, (u : ℚ) / v = k / 2 := by
      rcases eq_or_eq_neg_of_abs_eq hhalf with h | h
      · exact ⟨2 * n + 1, by push_cast; linarith⟩
      · exact ⟨2 * n - 1, by push_cast; linarith⟩
    obtain ⟨k, hk⟩ := hodd
    rw [← htie k hk] at hhalf
    exact hn.even hhalf

/-- The places of a nearest quotient that is larger than the dividend are finer than the
fraction. -/
theorem lt_zpow_of_nearest {q m : ℤ} (hv : 0 < v) (hu : |u| < |q|)
    (hnear : |(u : ℚ) / v * 10 ^ m - q| ≤ 1 / 2) : (v : ℚ) < 10 ^ m := by
  have hvq : (0 : ℚ) < v := by exact_mod_cast hv
  have hpower : (0 : ℚ) < 10 ^ m := by positivity
  by_contra hcoarse
  rw [not_lt] at hcoarse
  have hle : |(u : ℚ) / v * 10 ^ m| ≤ |u| :=
    calc |(u : ℚ) / v * 10 ^ m| = |(u : ℚ)| / v * 10 ^ m := by
          rw [abs_mul, abs_div, abs_of_pos hvq, abs_of_pos hpower]
      _ ≤ |(u : ℚ)| / v * v := mul_le_mul_of_nonneg_left hcoarse (by positivity)
      _ = |u| := by rw [div_mul_cancel₀ _ hvq.ne', Int.cast_abs]
  have hfew : (|q| : ℤ) < ((|u| + 1 : ℤ) : ℚ) := by
    have := abs_sub_abs_le_abs_sub (q : ℚ) ((u : ℚ) / v * 10 ^ m)
    rw [abs_sub_comm] at this
    push_cast at hle ⊢
    linarith
  have hint : |q| < |u| + 1 := by exact_mod_cast hfew
  omega

/-- **Rounding a nearest quotient** that is larger than the dividend is rounding the quotient
itself. -/
theorem of_nearest {q m : ℤ} (hv : 0 < v) (hu : |u| < |q|)
    (hnear : |(u : ℚ) / v * 10 ^ m - q| ≤ 1 / 2) (hn : RoundsHalfEven (q * 10 ^ (-m)) n) :
    RoundsHalfEven (u / v) n := by
  have hvq : (0 : ℚ) < v := by exact_mod_cast hv
  have hten : (10 : ℚ) ≠ 0 := by norm_num
  have hfine := lt_zpow_of_nearest hv hu hnear
  have hm : 0 < m := by
    by_contra hle
    have hone : (10 : ℚ) ^ m ≤ 1 := zpow_le_one_of_nonpos₀ (by norm_num) (by omega)
    have : (1 : ℚ) ≤ v := by exact_mod_cast hv
    linarith
  have hback (y : ℚ) : y * 10 ^ m * 10 ^ (-m) = y := by
    rw [mul_assoc, ← zpow_add₀ hten, add_neg_cancel, zpow_zero, mul_one]
  refine of_close hv hn ?_ ?_
  · calc |(u : ℚ) / v - q * 10 ^ (-m)|
        = |(u : ℚ) / v * 10 ^ m - q| * 10 ^ (-m) := by
          rw [← abs_of_pos (zpow_pos (by norm_num) (-m) : (0 : ℚ) < 10 ^ (-m)), ← abs_mul, sub_mul,
            hback, abs_of_pos (zpow_pos (by norm_num) (-m) : (0 : ℚ) < 10 ^ (-m))]
      _ ≤ 1 / 2 * 10 ^ (-m) := mul_le_mul_of_nonneg_right hnear (by positivity)
      _ < 1 / (2 * v) := by
          rw [zpow_neg, ← one_div, one_div_mul_one_div]
          exact one_div_lt_one_div_of_lt (by positivity) (by linarith)
  · intro k hk
    -- A half has one place, so the nearest quotient is the half itself.
    obtain ⟨j, rfl⟩ : ∃ j : ℕ, m = j + 1 := ⟨(m - 1).toNat, by omega⟩
    have hinteger : (u : ℚ) / v * 10 ^ ((j : ℤ) + 1) = (k * 5 * 10 ^ j : ℤ) := by
      rw [hk, zpow_add_one₀ hten, zpow_natCast]
      push_cast
      ring
    have hq' : q = k * 5 * 10 ^ j := by
      have hclose : |((k * 5 * 10 ^ j - q : ℤ) : ℚ)| < 1 := by
        rw [hinteger, ← Int.cast_sub] at hnear
        linarith
      have hzero : |k * 5 * 10 ^ j - q| < 1 := by exact_mod_cast hclose
      exact (sub_eq_zero.mp (Int.abs_lt_one_iff.mp hzero)).symm
    rw [hq', ← hinteger, hback]

end RoundsHalfEven

namespace Decimal

variable {a b : Decimal}

/-- The quotient at the scale of the dividend, as a fraction of integers. -/
theorem toRat_div_eq_fraction (a b : Decimal) :
    a.toRat / b.toRat * 10 ^ a.scale =
      ((a.unscaled * b.unscaled.sign * 10 ^ b.scale.toNat : ℤ) : ℚ) /
        (b.unscaled.natAbs * 10 ^ (-b.scale).toNat : ℤ) := by
  have hten : (10 : ℚ) ≠ 0 := by norm_num
  have hscale : (10 : ℚ) ^ b.scale = 10 ^ b.scale.toNat / 10 ^ (-b.scale).toNat := by
    rw [← zpow_natCast, ← zpow_natCast, ← zpow_sub₀ hten]
    congr 1
    omega
  calc a.toRat / b.toRat * 10 ^ a.scale
      = (a.unscaled : ℚ) / b.unscaled * 10 ^ b.scale := by
        rw [toRat, toRat, mul_div_mul_comm, mul_assoc, ← zpow_sub₀ hten, ← zpow_add₀ hten]
        congr 2
        ring
    _ = _ := by
        rw [hscale, cast_div_eq_div_natAbs, div_mul_div_comm, ← Int.cast_natCast b.unscaled.natAbs]
        push_cast
        rfl

/-- **Division rounds the quotient** if dividend and divisor together have few enough digits. -/
theorem div_isRounding (hb : b.isZero = false)
    (hshort : a.unscaled.natAbs * 10 ^ b.scale.toNat < 10 ^ (quotientDigits - 1)) :
    IsRounding (a.toRat / b.toRat) a.scale (a.div b) := by
  have hround := rescale_isRounding (a.quotient b) a.scale
  rcases quotient_near a hb with hexact | ⟨hlong, hnear⟩
  · rwa [hexact] at hround
  · refine ⟨hround.scale_eq, ?_⟩
    have hb0 : b.unscaled ≠ 0 := by simpa [isZero] using hb
    have hfew : |a.unscaled * b.unscaled.sign * 10 ^ b.scale.toNat| <
        (10 ^ (quotientDigits - 1) : ℤ) := by
      rw [abs_mul, abs_mul, Int.abs_sign_of_ne_zero hb0, mul_one, abs_pow, Int.abs_eq_natAbs]
      exact_mod_cast hshort
    have hmany : (10 ^ (quotientDigits - 1) : ℤ) ≤ |(a.quotient b).unscaled| := by
      rw [Int.abs_eq_natAbs]
      exact_mod_cast hlong
    have hdivisor : (0 : ℤ) < b.unscaled.natAbs * 10 ^ (-b.scale).toNat := by positivity
    rw [toRat_div_eq_fraction]
    refine .of_nearest (m := (a.quotient b).scale - a.scale) hdivisor (hfew.trans_le hmany) ?_ ?_
    · rwa [← toRat_div_eq_fraction, mul_assoc, ← zpow_add₀ (by norm_num), add_sub_cancel]
    · rw [neg_sub, ← toRat_mul_zpow]
      exact hround.unscaled

end Decimal

/-! ## §4 The operator -/

namespace Eval

/-- **Dividing by a number other than zero** rounds twice: the quotient to its digits, unless it
comes out even, and then to the scale of the dividend, half to even.  That is the exact quotient
rounded once if dividend and divisor together have fewer digits than a quotient. -/
theorem divide_rounds_twice (a b : Decimal) (hb : b.isZero = false) :
    divide (.decimal a) (.decimal b) = .ok (.decimal (a.div b)) ∧
      Decimal.IsRounding (a.quotient b).toRat a.scale (a.div b) ∧
      ((a.quotient b).toRat = a.toRat / b.toRat ∨
        10 ^ (Decimal.quotientDigits - 1) ≤ (a.quotient b).unscaled.natAbs ∧
          |a.toRat / b.toRat * 10 ^ (a.quotient b).scale - (a.quotient b).unscaled| ≤ 1 / 2) ∧
      (a.unscaled.natAbs * 10 ^ b.scale.toNat < 10 ^ (Decimal.quotientDigits - 1) →
        Decimal.IsRounding (a.toRat / b.toRat) a.scale (a.div b)) := by
  refine ⟨?_, Decimal.rescale_isRounding _ _, Decimal.quotient_near a hb, Decimal.div_isRounding hb⟩
  simp [divide, hb]

/-- A half divided by two is between two numbers with one place, and the even one is taken. -/
theorem half_divided_by_two :
    divide (.decimal ⟨5, 1⟩) (.decimal ⟨20, 1⟩) = .ok (.decimal ⟨2, 1⟩) ∧
      Decimal.IsRounding ((⟨5, 1⟩ : Decimal).toRat / (⟨20, 1⟩ : Decimal).toRat) 1 ⟨2, 1⟩ := by
  have hresult : Decimal.div ⟨5, 1⟩ ⟨20, 1⟩ = ⟨2, 1⟩ := by decide +kernel
  obtain ⟨hdivide, -, -, honce⟩ := divide_rounds_twice ⟨5, 1⟩ ⟨20, 1⟩ (by decide)
  rw [hresult] at hdivide honce
  exact ⟨hdivide, honce (by decide)⟩

/-- A half divided by a little less than two is above the middle; the first rounding gives the
middle, from where the second one goes down. -/
theorem half_divided_by_less_than_two :
    let quotient := (⟨5, 1⟩ : Decimal).toRat / (⟨2 * 10 ^ 100 - 1, 100⟩ : Decimal).toRat
    Decimal.IsRounding quotient 1 ⟨3, 1⟩ ∧ ¬ Decimal.IsRounding quotient 1 ⟨2, 1⟩ ∧
      divide (.decimal ⟨5, 1⟩) (.decimal ⟨2 * 10 ^ 100 - 1, 100⟩) = .ok (.decimal ⟨2, 1⟩) := by
  intro quotient
  have hthree : Decimal.IsRounding quotient 1 ⟨3, 1⟩ := by
    refine ⟨rfl, ?_⟩
    constructor <;> norm_num [quotient, Decimal.toRat, abs_of_nonpos]
  refine ⟨hthree, ?_, by decide +kernel⟩
  intro htwo
  have := hthree.unique htwo
  contradiction

end Eval

end DynImp
