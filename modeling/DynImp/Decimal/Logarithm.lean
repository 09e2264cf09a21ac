import DynImp.Decimal.Binary

/-!
# Natural logarithm

The logarithm is taken in double precision.  A decimal is brought to a binary64 number,
the library function is applied, and the shortest decimal that reads back to the result
is returned.  There is no logarithm where that result is not finite.
-/

namespace DynImp.Decimal

/-! ## §1 To binary -/

/-- The base-ten logarithm of two, to 38 places, as a numerator over `10 ^ 38`. -/
def logTwo : Nat := 30102999566398119521373889472449302676

/-- An upper estimate of the number of digits of `n`, from its length in bits. -/
def digitEstimate (n : Nat) : Nat := (n.log2 + 2) * logTwo / Nat.pow 10 38

/-- How many groups of digits at the end do not matter for the nearest binary number. -/
def surplusGroups (n : Nat) : Nat := (digitEstimate n - 25) / 19

/-- The size of the groups of bits that long integers are kept in. -/
def wordBits : Nat := 64

/-- Whether a group of bits of `n` has one set among its lowest `width` bits. -/
def hasLowBit (width n : Nat) : Bool :=
  if n = 0 then false else n % Nat.pow 2 width ≠ 0 ∨ hasLowBit width (n / Nat.pow 2 wordBits)
termination_by n
decreasing_by exact Nat.div_lt_self (by omega) (by decide)

/-- **Leading bits.** The leading `wordBits` bits of `n`, and zeros for the others.  So that a tie
is not taken for exact, the last of the leading bits is also set if something below them is: of
every group below, only as many bits are looked at as the leading group has. -/
def leadingBits (n : Nat) : Nat :=
  if n.log2 < wordBits then n
  else
    let below := n.log2 + 1 - wordBits
    -- The groups are counted from the lowest bit, so the leading one may be short.
    let leading := n / Nat.pow 2 below
    let sticky := hasLowBit (n.log2 % wordBits + 1) (n % Nat.pow 2 below)
    (if sticky ∧ leading % 2 = 0 then leading + 1 else leading) * Nat.pow 2 below

/-- The binary number for a natural number, the nearest one to its leading bits. -/
def binaryOfNat (n : Nat) : Float := Float.ofBits (Binary64.nearest (leadingBits n) 1).toUInt64

/-- The product of `acc` and `n` copies of `base`, by squaring. -/
def powerOnto (acc base : Float) (n : Nat) : Float :=
  let acc := if n % 2 = 1 then acc * base else acc
  if n / 2 = 0 then acc else powerOnto acc (base * base) (n / 2)
termination_by n
decreasing_by omega

/-- The largest number of zeros before the point that is multiplied out, a count of 31 bits. -/
def zeroLimit : Int := 0x7FFFFFFF

/-- The least scale beyond the digits at which a number is too small to be told from zero. -/
def vanishingScale : Int := 400

/-- The binary number for `n · 10 ^ (-scale)`, where `n` is not zero: the nearest one if there are
places, and otherwise the one for `n` times a power of ten. -/
def binaryOfScaled (n : Nat) (scale : Int) : Float :=
  if 0 < scale then
    if (Numeral.digits 10 n).length + vanishingScale < scale then 0
    else Float.ofBits (Binary64.nearest n (Nat.pow 10 scale.toNat)).toUInt64
  else if zeroLimit < -scale then Float.ofBits Binary64.infinityBits.toUInt64
  else binaryOfNat n * powerOnto 1 10 (-scale).toNat

/-- The binary number for a magnitude, after surplus digits are dropped. -/
def binaryOfMagnitude (n : Nat) (scale : Int) : Float :=
  if n = 0 then 0
  else if scale = 0 then binaryOfNat n
  else binaryOfScaled (n / Nat.pow 10 (19 * surplusGroups n)) (scale - 19 * surplusGroups n)

/-- **To binary.** -/
def toBinary (d : Decimal) : Float :=
  let magnitude := binaryOfMagnitude d.unscaled.natAbs d.scale
  if d.unscaled < 0 then -magnitude else magnitude

/-! ## §2 From binary -/

/-- **From binary.** The shortest decimal that reads back to a finite binary number. -/
def ofBinary? (x : Float) : Option Decimal :=
  let bits := x.toBits.toNat
  let magnitude := bits % Binary64.signBit
  if Binary64.infinityBits ≤ magnitude then none
  else
    let (m, q) := Binary64.unpack magnitude
    let (k, p) := if m = 0 then (0, 0) else Binary64.shortest m q
    let signed := Numeral.withSign (Binary64.signBit ≤ bits) k
    some (if 0 ≤ p then ⟨signed * Nat.pow 10 p.toNat, 0⟩ else ⟨signed, -p⟩)

/-- **Logarithm.** The natural logarithm in double precision, where it is finite. -/
def log? (d : Decimal) : Option Decimal := ofBinary? (Float.log d.toBinary)

end DynImp.Decimal
