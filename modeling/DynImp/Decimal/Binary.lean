import DynImp.Decimal

/-!
# Decimals and binary floating point

The way from a decimal to the nearest binary64 number and back to the shortest decimal.

* **Layer A: bits.** A binary64 number that is not negative is a pair `(m, q)` of natural
  and integer, standing for `m · 2 ^ q`; its bit pattern is an arithmetic expression in both.
* **Layer B: to binary.** A positive ratio is rounded to the nearest such number, half to even.
* **Layer C: to decimal.** Of the decimals that round to `m · 2 ^ q` the ones with the fewest
  digits are taken, and of those the nearest.

Everything is computed in exact integer arithmetic.
-/

namespace DynImp.Binary64

/-! ## §1 Bits -/

/-- The least exponent of a binary64 number, that of the subnormal ones. -/
def minExponent : Int := -1074

/-- The number of bit patterns that share an exponent, `2 ^ 52`. -/
def patterns : Nat := 0x10000000000000

/-- The bit pattern of infinity. -/
def infinityBits : Nat := 0x7FF * patterns

/-- The bit that the pattern of a negative number has besides that of its magnitude. -/
def signBit : Nat := 0x8000000000000000

/-- The bit pattern of `m · 2 ^ q` where `m ≤ 2 ^ 53`, and `2 ^ 52 ≤ m` unless `q` is the least
exponent.  What is too large becomes infinity. -/
def pack (m : Nat) (q : Int) : Nat := min infinityBits ((q - minExponent).toNat * patterns + m)

/-- The magnitude `m · 2 ^ q` of a finite number with this bit pattern. -/
def unpack (bits : Nat) : Nat × Int :=
  let exponent := bits / patterns % 0x800
  let fraction := bits % patterns
  if exponent = 0 then (fraction, minExponent)
  else (fraction + patterns, minExponent + (exponent - 1 : Nat))

/-! ## §2 The nearest binary number -/

/-- The ratio `num / den · 2 ^ (-q)` as a numerator and a denominator. -/
def scaled (num den : Nat) (q : Int) : Nat × Nat :=
  if q < 0 then (num * Nat.pow 2 (-q).toNat, den) else (num, den * Nat.pow 2 q.toNat)

/-- `n / d` rounded to the nearest integer, a half to the even neighbour. -/
def roundRatio (n d : Nat) : Nat :=
  if d < 2 * (n % d) ∨ (d = 2 * (n % d) ∧ n / d % 2 = 1) then n / d + 1 else n / d

/-- The exponent at which the ratio of two positive numbers has 53 bits before the point, or the
least exponent if that is larger. -/
def exponentOf (num den : Nat) : Int :=
  -- The guess is right or one too small.
  let guess : Int := (num.log2 : Int) - den.log2 - 53
  let (n, d) := scaled num den guess
  max minExponent (if n / d < 2 * patterns then guess else guess + 1)

/-- **Nearest.** The bit pattern of the binary64 number nearest to a ratio, a half to the even
neighbour. -/
def nearest (num den : Nat) : Nat :=
  if num = 0 then 0
  else
    let q := exponentOf num den
    let (n, d) := scaled num den q
    pack (roundRatio n d) q

/-! ## §3 The shortest decimal -/

/-- A positive number `m · 2 ^ q` with the reals that round to it.  All are given as numerators
over one denominator. -/
structure Interval where
  /-- The number itself. -/
  mid : Nat
  /-- The lower end. -/
  low : Nat
  /-- The upper end. -/
  high : Nat
  /-- The common denominator. -/
  den : Nat
  /-- Whether the ends round to the number too. -/
  closed : Bool

/-- The reals that round to `m · 2 ^ q`: half the distance to either neighbour, the lower one of
which is nearer where the exponent changes. -/
def interval (m : Nat) (q : Int) : Interval :=
  let below := if m = patterns ∧ minExponent < q then 1 else 2
  let up := if q < 0 then 1 else Nat.pow 2 q.toNat
  let den := if q < 0 then 4 * Nat.pow 2 (-q).toNat else 4
  ⟨4 * m * up, (4 * m - below) * up, (4 * m + 2) * up, den, m % 2 = 0⟩

/-- Whether `n / d` lies in the interval. -/
def Interval.holds (i : Interval) (n d : Nat) : Bool :=
  if i.closed then i.low * d ≤ n * i.den ∧ n * i.den ≤ i.high * d
  else i.low * d < n * i.den ∧ n * i.den < i.high * d

/-- `k · 10 ^ p` as a numerator and a denominator. -/
def gridPoint (k : Nat) (p : Int) : Nat × Nat :=
  if p < 0 then (k, Nat.pow 10 (-p).toNat) else (k * Nat.pow 10 p.toNat, 1)

/-- The multiple of `10 ^ p` that lies in the interval next to its number: the nearer of the two
neighbours of the number on that grid that does, the lower one if both are as near. -/
def Interval.pick? (i : Interval) (p : Int) : Option Nat :=
  let (unitNum, unitDen) := gridPoint 1 p
  let k := i.mid * unitDen / (i.den * unitNum)
  let holds (k : Nat) : Bool := i.holds (k * unitNum) unitDen
  -- A tie goes to the lower neighbour.
  let upNearer : Bool := i.den * unitNum < 2 * (i.mid * unitDen % (i.den * unitNum))
  if holds k ∧ ¬(upNearer ∧ holds (k + 1)) then some k
  else if holds (k + 1) then some (k + 1)
  else none

/-- The first grid with a hit, from the unit `10 ^ p` on for `budget` finer ones. -/
def Interval.search (i : Interval) : Nat → Int → Option (Nat × Int)
  | 0, _ => none
  | budget + 1, p =>
    match i.pick? p with
    | some k => some (k, p)
    | none => i.search budget (p - 1)

/-- A power of ten above every finite number. -/
def topPower : Int := 309

/-- How many grids there are from the top power down to the digits of the least number. -/
def gridCount : Nat := 309 + 1074 + 2

/-- **Shortest decimal.** `k` and `p` with the fewest digits such that `k · 10 ^ p` rounds to the
positive number `m · 2 ^ q`. -/
def shortest (m : Nat) (q : Int) : Nat × Int :=
  ((interval m q).search gridCount topPower).getD (0, 0)

end DynImp.Binary64
