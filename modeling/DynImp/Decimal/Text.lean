import DynImp.Decimal

/-!
# Writing decimals

A decimal is written with all its places and a point, unless that would begin with more
than five zeros after the point or end in more than fifteen zeros before it; then an
exponent is written.  Zero is written as a single digit at any scale.
-/

namespace DynImp.Decimal

/-- **Layout.** Where positional notation ends. -/
structure Layout where
  /-- How many zeros may stand between the point and the first digit. -/
  leadingZeros : Nat
  /-- How many zeros may be appended to a number without places. -/
  trailingZeros : Nat

/-- Five zeros after the point, fifteen before it. -/
def layout : Layout := ⟨5, 15⟩

/-- A run of zeros. -/
def zeros (n : Nat) : List Char := List.replicate n '0'

/-- Digits with the point in front of the last `places` of them, filled up with zeros so that one
digit stands before the point. -/
def withPoint (ds : List Char) (places : Nat) : List Char :=
  let filled := zeros (places + 1 - ds.length) ++ ds
  filled.take (filled.length - places) ++ '.' :: filled.drop (filled.length - places)

/-- Digits with the point after the first one, if there are more. -/
def leadingPoint : List Char → List Char
  | [d] => [d]
  | d :: rest => d :: '.' :: rest
  | [] => []

/-- The digits of a magnitude that is not zero, laid out for a scale. -/
def layOut (ds : List Char) (scale : Int) : List Char :=
  if 0 < scale then
    if (layout.leadingZeros : Int) < scale - ds.length then
      leadingPoint ds ++ ['E'] ++ (Numeral.signedText 10 (ds.length - scale - 1)).toList
    else withPoint ds scale.toNat
  else if -scale ≤ layout.trailingZeros then ds ++ zeros (-scale).toNat
  else ds ++ ['e', '+'] ++ (Numeral.signedText 10 (-scale)).toList

/-- **Text.** The written form of a decimal. -/
def text (d : Decimal) : String :=
  if d.isZero then "0"
  else
    let laidOut := layOut (Numeral.text 10 d.unscaled.natAbs) d.scale
    String.ofList (if d.unscaled < 0 then '-' :: laidOut else laidOut)

end DynImp.Decimal
