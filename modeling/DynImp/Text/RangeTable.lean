/-!
# Range tables

A set of characters given as inclusive ranges of code points in increasing order.
Membership walks the ranges and stops at the first one that lies beyond the
character, so a character early in the order is decided after a few steps.
-/

namespace DynImp.Text

/-- **Table.** Inclusive ranges of code points, in increasing order. -/
abbrev RangeTable := List (Nat × Nat)

namespace RangeTable

/-- Whether a code point lies in one of the ranges. -/
def covers : RangeTable → Nat → Bool
  | [], _ => false
  | (low, high) :: rest, n => if n < low then false else if n ≤ high then true else covers rest n

/-- Whether a character lies in one of the ranges. -/
def contains (table : RangeTable) (c : Char) : Bool := table.covers c.toNat

end RangeTable

end DynImp.Text
