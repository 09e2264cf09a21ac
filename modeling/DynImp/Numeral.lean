/-!
# Numerals

Positional notation in any base from 2 on.  Digits above nine are the lower-case
letters in order, so bases up to 36 can be written.
-/

namespace DynImp.Numeral

/-! ## §1 Digits -/

/-- The digits of `n`, most significant first, in front of `acc`. -/
def digitsOnto (base n : Nat) (acc : List Nat) : List Nat :=
  if n < base ∨ base < 2 then n :: acc else digitsOnto base (n / base) (n % base :: acc)
termination_by n
decreasing_by
  exact Nat.div_lt_self (by omega) (by omega)

/-- **Digits.** The digits of `n`, most significant first and without a leading zero; zero has
the single digit 0. -/
def digits (base n : Nat) : List Nat := digitsOnto base n []

/-- **Value.** The number with these digits, most significant first. -/
def value (base : Nat) (ds : List Nat) : Nat := ds.foldl (fun n d => base * n + d) 0

/-! ## §2 Writing -/

/-- The character for a digit: `0` to `9`, then `a` to `z`. -/
def digitChar (d : Nat) : Char := if d < 10 then Char.ofNat (48 + d) else Char.ofNat (87 + d)

/-- The numeral of `n`. -/
def text (base n : Nat) : List Char := (digits base n).map digitChar

/-- The numeral of an integer: the one of its magnitude, after a `-` if it is negative. -/
def signedText (base : Nat) (i : Int) : String :=
  String.ofList (if i < 0 then '-' :: text base i.natAbs else text base i.natAbs)

/-! ## §3 Reading -/

/-- Whether the text goes on with an ASCII digit. -/
def startsWithDigit : List Char → Bool
  | c :: _ => c.isDigit
  | [] => false

/-- The mark that sets digits apart. -/
def spacer : Char := '_'

/-- The value of a run of ASCII digits, in which spacers may stand after the first digit; `none`
for anything else. -/
def ofDigits? (cs : List Char) : Option Nat :=
  if startsWithDigit cs ∧ cs.all fun c => c.isDigit ∨ c = spacer then
    some (value 10 ((cs.filter Char.isDigit).map fun c => c.toNat - 48))
  else none

/-- An optional sign and what follows it. -/
def splitSign : List Char → Bool × List Char
  | '-' :: rest => (true, rest)
  | '+' :: rest => (false, rest)
  | cs => (false, cs)

/-- A magnitude with its sign put back. -/
def withSign (negative : Bool) (n : Nat) : Int := if negative then -(n : Int) else n

/-- **Integers.** An optional sign and digits. -/
def ofChars? (cs : List Char) : Option Int :=
  let (negative, magnitude) := splitSign cs
  (ofDigits? magnitude).map (withSign negative)

/-- The integer that a text stands for. -/
def ofText? (s : String) : Option Int := ofChars? s.toList

end DynImp.Numeral
