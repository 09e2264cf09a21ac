/-!
# Counts

Natural numbers of 32 bits.  How often something is repeated and the base of a numeral are
counts; the integers of a program are unbounded and have to be narrowed to them.
-/

namespace DynImp

/-- **Narrowing.** The count that a number is, if it is one.  Nothing is cut off. -/
def count? (n : Nat) : Option UInt32 :=
  if h : n < UInt32.size then some (UInt32.ofNatLT n h) else none

theorem count?_eq_some_iff {n : Nat} {count : UInt32} :
    count? n = some count ↔ count.toNat = n := by
  unfold count?
  split
  next h =>
    rw [Option.some.injEq, ← UInt32.toNat_inj, UInt32.toNat_ofNatLT]
    exact eq_comm
  next h =>
    constructor
    · exact fun hnone => nomatch hnone
    · rintro rfl
      exact absurd count.toNat_lt_size h

end DynImp
