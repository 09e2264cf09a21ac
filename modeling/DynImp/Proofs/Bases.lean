import DynImp.Eval.Builtin
import DynImp.Proofs.Numeral
import Mathlib.Data.Nat.Digits.Defs

/-!
# Numerals in every base

What `converter` writes is specified without the digits that it computes: by the characters
that a base allows, where a zero may stand, and the positional value.

* **Layer A: digits.** Which digit a character stands for.
* **Layer B: numerals.** The texts that write a number in a base, and a reader for them.
* **Layer C: the converter.** Which bases it takes, and that nothing is lost.
-/

namespace DynImp

namespace Numeral

/-! ## §1 Digits -/

/-- The digit that a character stands for: decimal digits for themselves, lower-case letters from
ten on. -/
def digitOf? (c : Char) : Option ℕ :=
  if '0' ≤ c ∧ c ≤ '9' then some (c.toNat - '0'.toNat)
  else if 'a' ≤ c ∧ c ≤ 'z' then some (c.toNat - 'a'.toNat + 10)
  else none

/-- The digit of a base that a character stands for. -/
def digitIn? (base : ℕ) (c : Char) : Option ℕ := (digitOf? c).filter (· < base)

/-- There are characters for 36 digits. -/
theorem digitOf?_digitChar : ∀ d < 36, digitOf? (digitChar d) = some d := by
  decide

theorem mapM_digitIn? {base : ℕ} (hmax : base ≤ 36) {ds : List ℕ} (hds : ∀ d ∈ ds, d < base) :
    (ds.map digitChar).mapM (digitIn? base) = some ds := by
  induction ds with
  | nil => rfl
  | cons d ds ih =>
      rw [List.forall_mem_cons] at hds
      have hchar := digitOf?_digitChar d (hds.1.trans_le hmax)
      rw [List.map_cons, List.mapM_cons, ih hds.2, digitIn?, hchar]
      simp [Option.filter, hds.1]

/-! ## §2 Numerals -/

/-- **Numerals.** The text writes the number in the base, most significant digit first. -/
structure Writes (base n : ℕ) (cs : List Char) : Prop where
  /-- Every character is a digit of the base, and the number is their positional value. -/
  value : ∃ ds, cs.mapM (digitIn? base) = some ds ∧ Nat.ofDigits base ds.reverse = n
  /-- Zero is written with one digit. -/
  zero : n = 0 → cs = ['0']
  /-- No other number begins with one. -/
  leading : n ≠ 0 → ∃ first others, cs = first :: others ∧ first ≠ '0'

theorem value_eq_ofDigits (base : ℕ) (ds : List ℕ) :
    value base ds = Nat.ofDigits base ds.reverse := by
  rw [Nat.ofDigits_eq_foldr, List.foldr_reverse, value]
  simp only [Nat.cast_id, Nat.add_comm]

theorem writes_text {base : ℕ} (hbase : 2 ≤ base) (hmax : base ≤ 36) (n : ℕ) :
    Writes base n (text base n) where
  value := by
    refine ⟨digits base n, mapM_digitIn? hmax (lt_of_mem_digits hbase n), ?_⟩
    rw [← value_eq_ofDigits, value_digits hbase]
  zero := by
    rintro rfl
    rw [text, digits_of_lt (by omega)]
    rfl
  leading := exists_text hbase hmax

/-- **Reading** a numeral in a base: an optional sign and digits. -/
def readIn? (base : ℕ) (s : String) : Option ℤ :=
  let (negative, magnitude) := splitSign s.toList
  if magnitude = [] then none
  else
    (magnitude.mapM (digitIn? base)).map fun ds =>
      withSign negative (Nat.ofDigits base ds.reverse)

namespace Writes

variable {base n : ℕ} {cs : List Char}

theorem exists_cons (h : Writes base n cs) : ∃ first others, cs = first :: others := by
  by_cases hn : n = 0
  · exact ⟨'0', [], h.zero hn⟩
  · obtain ⟨first, others, hcs, -⟩ := h.leading hn
    exact ⟨first, others, hcs⟩

/-- What writes the magnitude of an integer is read as the integer, if the sign stands in front. -/
theorem readIn? {i : ℤ} (h : Writes base i.natAbs cs) {s : String} (hs : s.toList = sign i ++ cs) :
    readIn? base s = some i := by
  obtain ⟨first, others, rfl⟩ := h.exists_cons
  obtain ⟨ds, hds, hvalue⟩ := h.value
  have hfirst : (digitIn? base first).isSome := by
    rw [List.mapM_cons] at hds
    cases hd : digitIn? base first with
    | none => rw [hd] at hds; cases hds
    | some d => rfl
  have hsplit : splitSign s.toList = (decide (sign i = ['-']), first :: others) := by
    rw [hs]
    obtain hsign | hsign := sign_eq i <;> rw [hsign]
    · -- No digit is a sign.
      exact splitSign_of_unsigned (by rintro rfl; cases hfirst) (by rintro rfl; cases hfirst) others
    · rfl
  rw [Numeral.readIn?, hsplit]
  simp only [List.cons_ne_nil, if_false, hds, Option.map_some, hvalue, withSign_sign]

end Writes

end Numeral

namespace Eval

open Numeral

/-! ## §3 The converter -/

/-- The integers that are narrowed to a base are the ones from 2 to 36; none is cut off to one. -/
theorem isBase_narrowed_iff {b : ℤ} {radix : UInt32} :
    (b.toNat?.bind count?).filter isBase = some radix ↔
      (radix.toNat : ℤ) = b ∧ 2 ≤ b ∧ b ≤ 36 := by
  have hbounds : isBase radix = true ↔ 2 ≤ radix.toNat ∧ radix.toNat ≤ 36 := by
    simp [isBase, UInt32.le_iff_toNat_le]
  rw [Option.filter_eq_some_iff, hbounds]
  cases b with
  | ofNat n =>
      rw [Int.toNat?, Option.bind_some, count?_eq_some_iff, Int.ofNat_eq_natCast]
      omega
  | negSucc n =>
      constructor
      · exact fun h => nomatch h.1
      · omega

/-- **Faithful encoding.** The laws of writing integers in a base. -/
structure FaithfulBase (b : ℤ) : Prop where
  /-- Every integer can be written in the bases from 2 to 36, and none in another. -/
  succeeds : ∀ i : ℤ, (∃ v, converter (.integer i) (.integer b) = .ok v) ↔ 2 ≤ b ∧ b ≤ 36
  /-- The base is what is refused. -/
  refuses : ∀ i fault, converter (.integer i) (.integer b) = .error fault → fault = .invalidBase b
  /-- A sign, if the integer is negative, and a numeral of its magnitude. -/
  numeral : ∀ i v, converter (.integer i) (.integer b) = .ok v →
    ∃ s magnitude, v = .string s ∧ s.toList = sign i ++ magnitude ∧
      Writes b.toNat i.natAbs magnitude
  /-- The text is read back. -/
  readBack : ∀ i s, converter (.integer i) (.integer b) = .ok (.string s) →
    readIn? b.toNat s = some i
  /-- Different integers have different texts. -/
  injective : ∀ i j v, converter (.integer i) (.integer b) = .ok v →
    converter (.integer j) (.integer b) = .ok v → i = j

theorem converter_of_base {b : ℤ} (hlow : 2 ≤ b) (hhigh : b ≤ 36) (i : ℤ) :
    converter (.integer i) (.integer b) = .ok (.string (signedText b.toNat i)) := by
  have hsize : b.toNat < UInt32.size := (by omega : b.toNat ≤ 36).trans_lt (by decide)
  obtain ⟨radix, hradix⟩ : ∃ radix : UInt32, (radix.toNat : ℤ) = b :=
    ⟨.ofNatLT b.toNat hsize, by rw [UInt32.toNat_ofNatLT]; omega⟩
  rw [converter, isBase_narrowed_iff.mpr ⟨hradix, hlow, hhigh⟩, ← hradix, Int.toNat_natCast]

theorem converter_of_not_base {b : ℤ} (hb : ¬ (2 ≤ b ∧ b ≤ 36)) (i : ℤ) :
    converter (.integer i) (.integer b) = .error (.invalidBase b) := by
  rw [converter]
  split
  next radix hradix => exact absurd (isBase_narrowed_iff.mp hradix).2 hb
  next => rfl

theorem converter_eq_ok_iff {i b : ℤ} {v : Value} :
    converter (.integer i) (.integer b) = .ok v ↔
      2 ≤ b ∧ b ≤ 36 ∧ v = .string (signedText b.toNat i) := by
  by_cases hb : 2 ≤ b ∧ b ≤ 36
  · rw [converter_of_base hb.1 hb.2]
    simp [hb, eq_comm]
  · rw [converter_of_not_base hb]
    exact ⟨fun h => (nomatch h), fun ⟨hlow, hhigh, _⟩ => absurd ⟨hlow, hhigh⟩ hb⟩

/-- In a base that it takes, the converter writes a sign and a numeral. -/
theorem converter_writes {i b : ℤ} {v : Value}
    (h : converter (.integer i) (.integer b) = .ok v) :
    ∃ s magnitude, v = .string s ∧ s.toList = sign i ++ magnitude ∧
      Writes b.toNat i.natAbs magnitude := by
  obtain ⟨hlow, hhigh, rfl⟩ := converter_eq_ok_iff.mp h
  exact ⟨_, _, rfl, signedText_toList b.toNat i, writes_text (by omega) (by omega) i.natAbs⟩

theorem readIn?_of_converter {i b : ℤ} {s : String}
    (h : converter (.integer i) (.integer b) = .ok (.string s)) : readIn? b.toNat s = some i := by
  obtain ⟨_, magnitude, heq, hs, hwrites⟩ := converter_writes h
  cases heq
  exact hwrites.readIn? hs

/-- **The converter is faithful** in every base that it takes. -/
theorem converter_faithful (b : ℤ) : FaithfulBase b where
  succeeds i := by
    simp only [converter_eq_ok_iff]
    exact ⟨fun ⟨_, hlow, hhigh, _⟩ => ⟨hlow, hhigh⟩, fun ⟨hlow, hhigh⟩ => ⟨_, hlow, hhigh, rfl⟩⟩
  refuses i fault h := by
    by_cases hb : 2 ≤ b ∧ b ≤ 36
    · rw [converter_of_base hb.1 hb.2] at h
      cases h
    · rw [converter_of_not_base hb] at h
      exact (Except.error.inj h).symm
  numeral i v := converter_writes
  readBack i s := readIn?_of_converter
  injective i j v hi hj := by
    -- The text is read as either integer, so they are the same.
    obtain ⟨s, -, rfl, -⟩ := converter_writes hi
    exact Option.some.inj ((readIn?_of_converter hi).symm.trans (readIn?_of_converter hj))

example : converter (.integer (-255)) (.integer 36) = .ok (.string "-73") := by decide +kernel

end Eval

end DynImp
