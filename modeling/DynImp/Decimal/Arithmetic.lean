import DynImp.Decimal

/-!
# Decimal arithmetic

Sums, differences and products are exact; only their scales follow rules of their own.

* A sum or difference has the larger scale of its operands, except that adding zero keeps
  the other operand and extends it by a bounded number of places.
* A product has the sum of the scales, except that multiplying by the plain unit keeps the
  other operand in its shortest form.
* A quotient has a bounded number of significant digits, and *division* then rounds it to
  the scale of the dividend, half to even.
-/

namespace DynImp.Decimal

/-! ## §1 Sums and differences -/

/-- How many places a sum with zero may gain. -/
def extensionLimit : Nat := 15

/-- `d` with the places that `zero` has more than it, up to the limit. -/
def extendTo (zero d : Decimal) : Decimal :=
  let more := min extensionLimit (zero.scale - d.scale).toNat
  ⟨d.unscaled * Nat.pow 10 more, d.scale + more⟩

/-- **Sum.** -/
def add (a b : Decimal) : Decimal :=
  if b.isZero then extendTo b a
  else if a.isZero then extendTo a b
  else ⟨a.unscaledAt (commonScale a b) + b.unscaledAt (commonScale a b), commonScale a b⟩

/-- **Difference.** -/
def sub (a b : Decimal) : Decimal :=
  ⟨a.unscaledAt (commonScale a b) - b.unscaledAt (commonScale a b), commonScale a b⟩

/-! ## §2 Products -/

/-- The largest scale at which the number one is recognised as a unit. -/
def unitScaleLimit : Int := 38

/-- Whether `d` is the number one at a scale from 0 to the limit. -/
def isUnit (d : Decimal) : Bool :=
  0 ≤ d.scale ∧ d.scale ≤ unitScaleLimit ∧ d.unscaled = Nat.pow 10 d.scale.toNat

/-- A positive number without its trailing zeros, and how many there were. -/
def stripZeros (n : Nat) : Nat × Nat :=
  if n ≠ 0 ∧ n % 10 = 0 then
    let (m, zeros) := stripZeros (n / 10)
    (m, zeros + 1)
  else (n, 0)
termination_by n
decreasing_by exact Nat.div_lt_self (by omega) (by omega)

/-- **Shortest form.** The same number without trailing zeros, its scale lowered by as many; zero
has scale 0. -/
def normalized (d : Decimal) : Decimal :=
  if d.isZero then ⟨0, 0⟩
  else
    let (m, zeros) := stripZeros d.unscaled.natAbs
    ⟨d.unscaled.sign * m, d.scale - zeros⟩

/-- The product at the sum of the scales, units included. -/
def times (a b : Decimal) : Decimal := ⟨a.unscaled * b.unscaled, a.scale + b.scale⟩

/-- **Product.** -/
def mul (a b : Decimal) : Decimal :=
  if a.isUnit then b.normalized
  else if b.isUnit then a.normalized
  else a.times b

/-! ## §3 Quotients -/

/-- The number of significant digits of a quotient that does not come out even. -/
def quotientDigits : Nat := 100

/-- How often `num` is to be multiplied by ten to reach `den`, and the product. -/
def raiseTo (den num : Nat) : Nat × Nat :=
  if 0 < num ∧ num < den then
    let (raised, places) := raiseTo den (10 * num)
    (raised, places + 1)
  else (num, 0)
termination_by den - num
decreasing_by omega

/-- Long division goes on for at most `budget` more places, or until nothing remains: the
quotient, what remains, and the number of places found. -/
def longDivision (den : Nat) : Nat → Nat → Nat → Nat × Nat × Nat
  | 0, quotient, remainder => (quotient, remainder, 0)
  | budget + 1, quotient, remainder =>
    if remainder = 0 then (quotient, 0, 0)
    else
      let (q, r, places) :=
        longDivision den budget (10 * quotient + 10 * remainder / den) (10 * remainder % den)
      (q, r, places + 1)

/-- The quotient of two positive integers to `quotientDigits` significant digits, the last one
rounded half up, and how many of the digits stand after the point. -/
def quotientOf (num den : Nat) : Nat × Nat :=
  let (raised, shift) := raiseTo den num
  let whole := raised / den
  -- The digits of the whole part count; if it has more than the limit, none are added.
  let budget := quotientDigits - (Numeral.digits 10 whole).length
  let (q, r, places) := longDivision den budget whole (raised % den)
  (if 5 ≤ 10 * r / den then q + 1 else q, shift + places)

/-- **Quotient.** A zero dividend and a unit divisor leave the dividend as it is; operands with
the same digits give one. -/
def quotient (a b : Decimal) : Decimal :=
  if a.isZero ∨ b.isUnit then a
  else if a.unscaled = b.unscaled then ⟨1, a.scale - b.scale⟩
  else
    -- The sign is put back last, so the rounding does not depend on it.
    let (q, places) := quotientOf a.unscaled.natAbs b.unscaled.natAbs
    ⟨a.unscaled.sign * b.unscaled.sign * q, a.scale - b.scale + places⟩

/-! ## §4 Rounding -/

/-- `n / m` rounded to the nearest integer, a half to the even neighbour. -/
def roundHalfEven (n m : Nat) : Nat :=
  if m < 2 * (n % m) ∨ (m = 2 * (n % m) ∧ n / m % 2 = 1) then n / m + 1 else n / m

/-- `n · 10 ^ (-places)` rounded to the nearest integer, a half to the even neighbour.  Where there
are many more places than `n` has bits, nothing is left and the power of ten is not computed. -/
def dropPlaces (n places : Nat) : Nat :=
  if n.log2 + 1 < places then 0 else roundHalfEven n (Nat.pow 10 places)

/-- Not computing a power that leaves nothing does not change what is left. -/
theorem dropPlaces_eq (n places : Nat) :
    dropPlaces n places = roundHalfEven n (Nat.pow 10 places) := by
  unfold dropPlaces
  split
  next h =>
    have below : 2 * n < Nat.pow 10 places :=
      calc 2 * n < 2 * 2 ^ (n.log2 + 1) := by have := @Nat.lt_log2_self n; omega
        _ = 2 ^ (n.log2 + 2) := by rw [Nat.pow_succ _ (n.log2 + 1), Nat.mul_comm]
        _ ≤ 10 ^ (n.log2 + 2) := Nat.pow_le_pow_left (by decide) _
        _ ≤ 10 ^ places := Nat.pow_le_pow_right (by decide) h
    unfold roundHalfEven
    rw [Nat.mod_eq_of_lt (by omega), Nat.div_eq_of_lt (by omega), if_neg (by omega)]
  next => rfl

/-- **Rounding.** The nearest number with the given scale, a half to the even neighbour. -/
def rescale (d : Decimal) (scale : Int) : Decimal :=
  if d.scale ≤ scale then ⟨d.unscaledAt scale, scale⟩
  else
    ⟨d.unscaled.sign * dropPlaces d.unscaled.natAbs (d.scale - scale).toNat, scale⟩

/-- **Division.** The quotient at the scale of the dividend. -/
def div (a b : Decimal) : Decimal := (a.quotient b).rescale a.scale

end DynImp.Decimal
