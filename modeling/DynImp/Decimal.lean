import DynImp.Numeral

/-!
# Decimals

A decimal is an integer with a scale, the number of its places after the point.  The
scale is part of the representation: `2.5` and `2.50` are the same number and print
differently.  A negative scale counts zeros before the point.
-/

namespace DynImp

/-- **Decimal.** The number `unscaled · 10 ^ (-scale)`. -/
structure Decimal where
  /-- The digits, read as an integer. -/
  unscaled : Int
  /-- How many of the digits stand after the point. -/
  scale : Int
  deriving DecidableEq, Repr

namespace Decimal

/-! ## §1 Numbers -/

/-- An integer as a decimal without places. -/
def ofInt (i : Int) : Decimal := ⟨i, 0⟩

/-- Whether the number is zero, at whatever scale. -/
def isZero (d : Decimal) : Bool := d.unscaled = 0

/-- The same number with the sign turned round. -/
def neg (d : Decimal) : Decimal := ⟨-d.unscaled, d.scale⟩

/-- `n · 10 ^ places`.  Zero is not multiplied, however many places there are. -/
def shifted (n : Int) (places : Nat) : Int := if n = 0 then 0 else n * Nat.pow 10 places

/-- The unscaled integer that `d` has at a scale not below its own. -/
def unscaledAt (d : Decimal) (scale : Int) : Int := shifted d.unscaled (scale - d.scale).toNat

/-- The smallest scale at which both numbers have all their places. -/
def commonScale (a b : Decimal) : Int := max a.scale b.scale

/-- Not multiplying zero does not change the product. -/
theorem shifted_eq (n : Int) (places : Nat) : shifted n places = n * Nat.pow 10 places := by
  unfold shifted
  split <;> simp [*]

/-! ## §2 Order -/

/-- The order of `n · 10 ^ places` and `m`.  Where there are more places than `m` has bits, the
power of ten alone outgrows `m` and is not computed. -/
def compareShifted (n : Int) (places : Nat) (m : Int) : Ordering :=
  if m.natAbs.log2 < places ∧ n ≠ 0 then Ord.compare n 0 else Ord.compare (shifted n places) m

/-- **Order.** Decimals are ordered as numbers: `1.5` and `1.50` are equal. -/
def compare (a b : Decimal) : Ordering :=
  if a.scale ≤ b.scale then compareShifted a.unscaled (b.scale - a.scale).toNat b.unscaled
  else (compareShifted b.unscaled (a.scale - b.scale).toNat a.unscaled).swap

/-- An integer is below every power of ten with more places than it has bits. -/
theorem natAbs_lt_pow {m : Int} {places : Nat} (h : m.natAbs.log2 < places) :
    m.natAbs < Nat.pow 10 places :=
  calc m.natAbs < 2 ^ (m.natAbs.log2 + 1) := Nat.lt_log2_self
    _ ≤ 10 ^ (m.natAbs.log2 + 1) := Nat.pow_le_pow_left (by decide) _
    _ ≤ 10 ^ places := Nat.pow_le_pow_right (by decide) h

/-- Not computing a power that outgrows the other number does not change the order. -/
theorem compareShifted_eq (n : Int) (places : Nat) (m : Int) :
    compareShifted n places m = Ord.compare (n * Nat.pow 10 places) m := by
  unfold compareShifted
  split
  next h =>
    have below := natAbs_lt_pow h.1
    rcases Int.lt_or_lt_of_ne h.2 with neg | pos
    · have : n * Nat.pow 10 places ≤ -1 * Nat.pow 10 places :=
        Int.mul_le_mul_of_nonneg_right (by omega) (by omega)
      rw [Int.compare_eq_lt.2 neg, Int.compare_eq_lt.2 (by omega)]
    · have : 1 * Nat.pow 10 places ≤ n * Nat.pow 10 places :=
        Int.mul_le_mul_of_nonneg_right (by omega) (by omega)
      rw [Int.compare_eq_gt.2 pos, Int.compare_eq_gt.2 (by omega)]
  next => rw [shifted_eq]

/-- Decimals are compared by what they are at a common scale. -/
theorem compare_eq (a b : Decimal) :
    a.compare b =
      Ord.compare (a.unscaledAt (commonScale a b)) (b.unscaledAt (commonScale a b)) := by
  unfold compare unscaledAt commonScale
  split
  next h =>
    rw [compareShifted_eq, shifted_eq, shifted_eq, Int.max_eq_right h]
    simp
  next h =>
    rw [compareShifted_eq, shifted_eq, shifted_eq, Int.max_eq_left (by omega)]
    simp [Int.compare_swap]

/-- Whether two decimals are the same number. -/
def sameNumber (a b : Decimal) : Bool := a.compare b = .eq

/-! ## §3 Reading -/

/-- The letters that introduce a power of ten. -/
def isExponentMark (c : Char) : Bool := c = 'e' ∨ c = 'E'

/-- The exponent that the end of a literal gives: an integer without spacers after its mark, and
zero if there is no mark. -/
def exponent? : List Char → Option Int
  | [] => some 0
  | _ :: cs => if Numeral.spacer ∈ cs then none else Numeral.ofChars? cs

/-- The scales that a literal can have, those of 64 bits. -/
def scaleBound : Int := 0x8000000000000000

/-- **Literals.** An integer with at most one point among its digits, and an optional power of ten.
The scale is the number of digits after the point, less the exponent. -/
def ofText? (s : String) : Option Decimal :=
  let mantissa := s.toList.takeWhile (!isExponentMark ·)
  let whole := mantissa.takeWhile (· ≠ '.')
  let places := (mantissa.dropWhile (· ≠ '.')).drop 1
  -- The point is dropped: the digits on both sides of it form one integer.
  match Numeral.ofChars? (whole ++ places), exponent? (s.toList.dropWhile (!isExponentMark ·)) with
  | some unscaled, some exponent =>
    let scale := (places.filter (· ≠ Numeral.spacer)).length - exponent
    -- Only a power of ten takes the scale past its bounds: no text has so many digits.
    if exponent = 0 ∨ -scaleBound ≤ scale ∧ scale < scaleBound then some ⟨unscaled, scale⟩
    else none
  | _, _ => none

end Decimal

end DynImp
