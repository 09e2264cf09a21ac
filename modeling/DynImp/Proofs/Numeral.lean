import DynImp.Decimal.Text
import DynImp.Proofs.Token.Spelling

/-!
# Numerals are read back

* **Layer A: digits.** The digits of a number have the number for their value, and do not
  begin with a zero unless they are one.
* **Layer B: numerals.** A numeral in base ten is a magnitude and is read as its number.
* **Layer C: decimals.** Positional notation with at least one place.
-/

namespace DynImp

namespace Numeral

open DynImp.Token (IsMagnitude IsInteger)

/-! ## §1 Digits -/

/-- Induction from the leading digit on. -/
@[elab_as_elim]
theorem induct {base : Nat} (hbase : 2 ≤ base) {motive : Nat → Prop}
    (small : ∀ n, n < base → motive n) (large : ∀ n, base ≤ n → motive (n / base) → motive n)
    (n : Nat) : motive n := by
  induction n using Nat.strongRecOn with
  | ind n ih =>
      by_cases h : n < base
      · exact small n h
      · exact large n (by omega) (ih _ (Nat.div_lt_self (by omega) hbase))

section Digits

variable {base : Nat}

theorem digitsOnto_of_lt {n : Nat} (h : n < base) (acc : List Nat) :
    digitsOnto base n acc = n :: acc := by
  rw [digitsOnto, if_pos (Or.inl h)]

theorem digitsOnto_of_le (hbase : 2 ≤ base) {n : Nat} (h : base ≤ n) (acc : List Nat) :
    digitsOnto base n acc = digitsOnto base (n / base) (n % base :: acc) := by
  rw [digitsOnto, if_neg (by omega)]

theorem digitsOnto_eq (hbase : 2 ≤ base) (n : Nat) (acc : List Nat) :
    digitsOnto base n acc = digits base n ++ acc := by
  induction n using induct hbase generalizing acc with
  | small n h => rw [digits, digitsOnto_of_lt h, digitsOnto_of_lt h, List.singleton_append]
  | large n h ih =>
      rw [digits, digitsOnto_of_le hbase h, digitsOnto_of_le hbase h, ih, ih [n % base],
        List.append_assoc, List.singleton_append]

theorem digits_of_lt {n : Nat} (h : n < base) : digits base n = [n] := digitsOnto_of_lt h []

theorem digits_of_le (hbase : 2 ≤ base) {n : Nat} (h : base ≤ n) :
    digits base n = digits base (n / base) ++ [n % base] := by
  rw [digits, digitsOnto_of_le hbase h, digitsOnto_eq hbase]

theorem value_append_one (base : Nat) (ds : List Nat) (d : Nat) :
    value base (ds ++ [d]) = base * value base ds + d := by
  rw [value, List.foldl_append]
  rfl

/-- The digits of a number have it for their value. -/
theorem value_digits (hbase : 2 ≤ base) (n : Nat) : value base (digits base n) = n := by
  induction n using induct hbase with
  | small n h =>
      rw [digits_of_lt h]
      simp [value]
  | large n h ih =>
      rw [digits_of_le hbase h, value_append_one, ih]
      exact Nat.div_add_mod n base

theorem lt_of_mem_digits (hbase : 2 ≤ base) (n : Nat) : ∀ d ∈ digits base n, d < base := by
  induction n using induct hbase with
  | small n h =>
      rw [digits_of_lt h]
      exact List.forall_mem_singleton.mpr h
  | large n h ih =>
      rw [digits_of_le hbase h, List.forall_mem_append, List.forall_mem_singleton]
      exact ⟨ih, Nat.mod_lt n (by omega)⟩

/-- The digits of a number other than zero do not begin with a zero. -/
theorem exists_digits (hbase : 2 ≤ base) {n : Nat} (hn : n ≠ 0) :
    ∃ d ds, digits base n = d :: ds ∧ d ≠ 0 := by
  induction n using induct hbase with
  | small n h => exact ⟨n, [], digits_of_lt h, hn⟩
  | large n h ih =>
      have hne : n / base ≠ 0 := Nat.ne_of_gt (Nat.div_pos h (by omega))
      obtain ⟨d, ds, hds, hd⟩ := ih hne
      exact ⟨d, ds ++ [n % base], by rw [digits_of_le hbase h, hds]; rfl, hd⟩

end Digits

/-- Zeros in front do not change the value. -/
theorem value_zeros_append (base k : Nat) (ds : List Nat) :
    value base (List.replicate k 0 ++ ds) = value base ds := by
  induction k with
  | zero => rfl
  | succ k ih => simpa [value, List.replicate_succ] using ih

/-! ## §2 Numerals -/

theorem digitChar_spec :
    ∀ d < 10, (digitChar d).isDigit = true ∧ (digitChar d).toNat - 48 = d := by
  decide

theorem eq_zero_of_digitChar : ∀ d < 36, digitChar d = '0' → d = 0 := by
  decide

theorem isDigit_of_mem_text {n : Nat} : ∀ c ∈ text 10 n, c.isDigit = true := by
  intro c hc
  obtain ⟨d, hd, rfl⟩ := List.mem_map.mp hc
  exact (digitChar_spec d (lt_of_mem_digits (by decide) n d hd)).1

theorem exists_text {base n : Nat} (hbase : 2 ≤ base) (hmax : base ≤ 36) (hn : n ≠ 0) :
    ∃ c cs, text base n = c :: cs ∧ c ≠ '0' := by
  obtain ⟨d, ds, hds, hd⟩ := exists_digits hbase hn
  have hlt : d < base := lt_of_mem_digits hbase n d (by rw [hds]; exact List.mem_cons_self)
  refine ⟨digitChar d, ds.map digitChar, by rw [text, hds, List.map_cons], fun heq => hd ?_⟩
  exact eq_zero_of_digitChar d (by omega) heq

theorem isMagnitude_text (n : Nat) : IsMagnitude (text 10 n) := by
  by_cases hn : n = 0
  · subst hn
    left
    rw [text, digits_of_lt (by decide)]
    rfl
  · obtain ⟨c, cs, hcs, hc⟩ := exists_text (by decide : 2 ≤ 10) (by decide) hn
    have hdigits := isDigit_of_mem_text (n := n)
    rw [hcs, List.forall_mem_cons] at hdigits
    exact .inr ⟨c, cs, hcs, hdigits.1, hc, hdigits.2⟩

/-- A run of digits is read as its value. -/
theorem ofDigits?_eq {cs : List Char} (hne : cs ≠ []) (hdigits : ∀ c ∈ cs, c.isDigit = true) :
    ofDigits? cs = some (value 10 (cs.map fun c => c.toNat - 48)) := by
  obtain ⟨first, others, rfl⟩ := List.exists_cons_of_ne_nil hne
  have hall : (first :: others).all (fun c => c.isDigit ∨ c = spacer) = true := by
    rw [List.all_eq_true]
    intro c hc
    simp [hdigits c hc]
  have hfilter : (first :: others).filter Char.isDigit = first :: others :=
    List.filter_eq_self.mpr hdigits
  have hstart : startsWithDigit (first :: others) = true := hdigits first List.mem_cons_self
  rw [ofDigits?, if_pos ⟨hstart, hall⟩, hfilter]

theorem values_text (n : Nat) : (text 10 n).map (fun c => c.toNat - 48) = digits 10 n := by
  have hvalues : ∀ d ∈ digits 10 n, (digitChar d).toNat - 48 = d := fun d hd =>
    (digitChar_spec d (lt_of_mem_digits (by decide) n d hd)).2
  rw [text, List.map_map]
  exact (List.map_congr_left hvalues).trans (List.map_id _)

/-- The sign of a numeral. -/
def sign (i : Int) : List Char := if i < 0 then ['-'] else []

theorem sign_eq (i : Int) : sign i = [] ∨ sign i = ['-'] := by
  unfold sign
  split
  · exact .inr rfl
  · exact .inl rfl

theorem splitSign_of_unsigned {first : Char} (hminus : first ≠ '-') (hplus : first ≠ '+')
    (others : List Char) : splitSign (first :: others) = (false, first :: others) := by
  unfold splitSign
  split
  · next heq => exact absurd (List.cons.inj heq).1 hminus
  · next heq => exact absurd (List.cons.inj heq).1 hplus
  · rfl

theorem splitSign_of_isDigit {first : Char} (h : first.isDigit = true) (others : List Char) :
    splitSign (first :: others) = (false, first :: others) :=
  splitSign_of_unsigned (by rintro rfl; cases h) (by rintro rfl; cases h) others

/-- A sign and digits are read as the value of the digits with this sign. -/
theorem ofChars?_append {sign cs : List Char} (hsign : sign = [] ∨ sign = ['-']) (hne : cs ≠ [])
    (hdigits : ∀ c ∈ cs, c.isDigit = true) :
    ofChars? (sign ++ cs) =
      some (withSign (sign = ['-']) (value 10 (cs.map fun c => c.toNat - 48))) := by
  have hread := ofDigits?_eq hne hdigits
  obtain rfl | rfl := hsign
  · obtain ⟨first, others, rfl⟩ := List.exists_cons_of_ne_nil hne
    have hsplit := splitSign_of_isDigit (hdigits first List.mem_cons_self) others
    simp [ofChars?, hsplit, hread]
  · have hsplit : splitSign ('-' :: cs) = (true, cs) := rfl
    simp [ofChars?, hsplit, hread]

/-- The sign of an integer put back on its magnitude. -/
theorem withSign_sign (i : Int) : withSign (sign i = ['-']) i.natAbs = i := by
  by_cases hi : i < 0
  · simp only [withSign, sign, hi, if_true, decide_true]
    omega
  · simp only [withSign, sign, hi, if_false]
    simp
    omega

theorem signedText_toList (base : Nat) (i : Int) :
    (signedText base i).toList = sign i ++ text base i.natAbs := by
  by_cases h : i < 0 <;> simp [signedText, sign, h]

theorem isInteger_signedText (i : Int) : IsInteger (signedText 10 i).toList :=
  ⟨sign i, _, sign_eq i, isMagnitude_text i.natAbs, signedText_toList 10 i⟩

/-- **Integers** are read back. -/
theorem ofText?_signedText (i : Int) : ofText? (signedText 10 i) = some i := by
  obtain ⟨c, cs, hcs⟩ := (isMagnitude_text i.natAbs).exists_cons
  have hne : text 10 i.natAbs ≠ [] := by rw [hcs]; exact List.cons_ne_nil c cs
  rw [ofText?, signedText_toList, ofChars?_append (sign_eq i) hne isDigit_of_mem_text, values_text,
    value_digits (by decide), withSign_sign]

end Numeral

namespace Decimal

open DynImp.Token (IsMagnitude IsDecimal)

/-! ## §3 Decimals -/

/-- **Positional notation**, with all places and at least one digit before the point. -/
def positional (d : Decimal) : List Char :=
  Numeral.sign d.unscaled ++ withPoint (Numeral.text 10 d.unscaled.natAbs) d.scale.toNat

/-- What positional notation has on the two sides of the point. -/
structure Positional (n places : Nat) (whole fraction : List Char) : Prop where
  magnitude : IsMagnitude whole
  length : fraction.length = places
  digits : ∀ c ∈ whole ++ fraction, c.isDigit = true
  value : Numeral.value 10 ((whole ++ fraction).map fun c => c.toNat - 48) = n

theorem isMagnitude_take {n places : Nat} (hplaces : 1 ≤ places)
    (h : places < (Numeral.text 10 n).length) :
    IsMagnitude ((Numeral.text 10 n).take ((Numeral.text 10 n).length - places)) := by
  have hn : n ≠ 0 := by
    rintro rfl
    have hzero : (Numeral.text 10 0).length = 1 := by
      rw [Numeral.text, Numeral.digits_of_lt (by decide)]
      rfl
    omega
  obtain ⟨c, cs, hcs, hc⟩ := Numeral.exists_text (by decide : 2 ≤ 10) (by decide) hn
  have hdigits := Numeral.isDigit_of_mem_text (n := n)
  rw [hcs] at h hdigits ⊢
  rw [List.forall_mem_cons] at hdigits
  obtain ⟨k, hk⟩ : ∃ k, (c :: cs).length - places = k + 1 :=
    ⟨(c :: cs).length - places - 1, by omega⟩
  rw [hk, List.take_succ_cons]
  exact .inr ⟨c, cs.take k, rfl, hdigits.1, hc, fun d hd => hdigits.2 d (List.mem_of_mem_take hd)⟩

theorem exists_positional (n : Nat) {places : Nat} (hplaces : 1 ≤ places) :
    ∃ whole fraction, withPoint (Numeral.text 10 n) places = whole ++ '.' :: fraction ∧
      Positional n places whole fraction := by
  generalize hds : Numeral.text 10 n = ds
  have hdigits : ∀ c ∈ zeros (places + 1 - ds.length) ++ ds, c.isDigit = true := by
    rw [List.forall_mem_append]
    refine ⟨fun c hc => ?_, hds ▸ Numeral.isDigit_of_mem_text⟩
    rw [List.eq_of_mem_replicate hc]
    rfl
  have hvalue : Numeral.value 10
      ((zeros (places + 1 - ds.length) ++ ds).map fun c => c.toNat - 48) = n := by
    rw [List.map_append, ← hds, Numeral.values_text, zeros, List.map_replicate]
    exact (Numeral.value_zeros_append _ _ _).trans (Numeral.value_digits (by decide) n)
  have hlength : (zeros (places + 1 - ds.length) ++ ds).length =
      places + 1 - ds.length + ds.length := by
    rw [List.length_append, zeros, List.length_replicate]
  refine ⟨_, _, rfl, ?_, ?_, ?_, ?_⟩
  · by_cases h : ds.length ≤ places
    · -- All digits stand behind the point, so one of the zeros stands before it.
      obtain ⟨k, hk⟩ : ∃ k, places + 1 - ds.length = k + 1 := ⟨places - ds.length, by omega⟩
      have hone : (zeros (places + 1 - ds.length) ++ ds).length - places = 1 := by omega
      rw [hone, hk, zeros, List.replicate_succ, List.cons_append]
      exact .inl rfl
    · have hnone : places + 1 - ds.length = 0 := by omega
      rw [hnone, zeros, List.replicate_zero, List.nil_append, ← hds]
      exact isMagnitude_take hplaces (by rw [hds]; omega)
  · rw [List.length_drop]
    omega
  · rwa [List.take_append_drop]
  · rwa [List.take_append_drop]

theorem isDecimal_positional {d : Decimal} (h : 1 ≤ d.scale) : IsDecimal d.positional := by
  have hplaces : 1 ≤ d.scale.toNat := by omega
  obtain ⟨whole, fraction, hpoint, hspec⟩ := exists_positional d.unscaled.natAbs hplaces
  refine ⟨Numeral.sign d.unscaled ++ whole, fraction, ?_, ?_, ?_, ?_⟩
  · exact ⟨_, whole, Numeral.sign_eq _, hspec.magnitude, rfl⟩
  · have hlength := hspec.length
    rintro rfl
    rw [List.length_nil] at hlength
    omega
  · exact (List.forall_mem_append.mp hspec.digits).2
  · rw [positional, hpoint, List.append_assoc]

/-- All of a text that is of a class is taken from the front. -/
theorem span_all {inClass : Char → Bool} {cs : List Char} (h : ∀ c ∈ cs, inClass c = true) :
    cs.takeWhile inClass = cs ∧ cs.dropWhile inClass = [] := by
  have := Token.span_append h (Token.stopsAt_nil inClass)
  rwa [List.append_nil] at this

/-- What no digit is. -/
theorem isDigit_ne {c : Char} (h : c.isDigit = true) :
    isExponentMark c = false ∧ c ≠ '.' ∧ c ≠ Numeral.spacer := by
  have hmark : ∀ m : Char, m.isDigit = false → c ≠ m := by
    rintro m hm rfl
    rw [hm] at h
    cases h
  have he := hmark 'e' (by decide)
  have hE := hmark 'E' (by decide)
  exact ⟨by simp [isExponentMark, he, hE], hmark '.' (by decide), hmark '_' (by decide)⟩

/-- A sign, digits, a point and digits are read as a decimal that has all the digits, with as many
places as there are behind the point. -/
theorem ofText?_append {sign whole fraction : List Char} (hsign : sign = [] ∨ sign = ['-'])
    (hne : whole ≠ []) (hwhole : ∀ c ∈ whole, c.isDigit = true)
    (hfraction : ∀ c ∈ fraction, c.isDigit = true) :
    ofText? (String.ofList (sign ++ whole ++ '.' :: fraction)) =
      some ⟨Numeral.withSign (sign = ['-'])
        (Numeral.value 10 ((whole ++ fraction).map fun c => c.toNat - 48)), fraction.length⟩ := by
  have hlead : ∀ c ∈ sign ++ whole, isExponentMark c = false ∧ c ≠ '.' := by
    rw [List.forall_mem_append]
    constructor <;> intro c hc
    · obtain rfl | rfl := hsign
      · cases hc
      · obtain rfl := List.mem_singleton.mp hc
        exact ⟨rfl, by decide⟩
    · obtain ⟨hmark, hpoint, -⟩ := isDigit_ne (hwhole c hc)
      exact ⟨hmark, hpoint⟩
  -- There is no exponent, so all of the text is the mantissa.
  have hmantissa : ∀ c ∈ sign ++ whole ++ '.' :: fraction, (!isExponentMark c) = true := by
    rw [List.forall_mem_append, List.forall_mem_cons]
    refine ⟨fun c hc => ?_, by decide, fun c hc => ?_⟩
    · rw [(hlead c hc).1]; rfl
    · rw [(isDigit_ne (hfraction c hc)).1]; rfl
  obtain ⟨hall, hnone⟩ := span_all hmantissa
  obtain ⟨htake, hdrop⟩ := Token.span_append
    (fun c hc => decide_eq_true (hlead c hc).2 : ∀ c ∈ sign ++ whole, decide (c ≠ '.') = true)
    (Token.stopsAt_cons.mpr (by decide) : Token.StopsAt (· ≠ '.') ('.' :: fraction))
  have hunscaled := Numeral.ofChars?_append hsign (List.append_ne_nil_of_left_ne_nil hne fraction)
    (List.forall_mem_append.mpr ⟨hwhole, hfraction⟩)
  rw [← List.append_assoc] at hunscaled
  have hspacers : fraction.filter (· ≠ Numeral.spacer) = fraction :=
    List.filter_eq_self.mpr fun c hc => decide_eq_true (isDigit_ne (hfraction c hc)).2.2
  simp only [ofText?, String.toList_ofList, hall, hnone, htake, hdrop, List.drop_one,
    List.tail_cons, hunscaled, exponent?, hspacers, true_or, if_true, Int.sub_zero]

/-- **Decimals** with places are read back. -/
theorem ofText?_positional {d : Decimal} (h : 1 ≤ d.scale) :
    ofText? (String.ofList d.positional) = some d := by
  have hplaces : 1 ≤ d.scale.toNat := by omega
  obtain ⟨whole, fraction, hpoint, hspec⟩ := exists_positional d.unscaled.natAbs hplaces
  obtain ⟨hwhole, hfraction⟩ := List.forall_mem_append.mp hspec.digits
  have hne : whole ≠ [] := by
    obtain ⟨c, cs, rfl⟩ := hspec.magnitude.exists_cons
    exact List.cons_ne_nil _ _
  have hscale : (fraction.length : Int) = d.scale := by
    rw [hspec.length]
    omega
  rw [positional, hpoint, ← List.append_assoc,
    ofText?_append (Numeral.sign_eq _) hne hwhole hfraction, hspec.value, Numeral.withSign_sign,
    hscale]

end Decimal

end DynImp
