import DynImp.Proofs.Grammar.Values
import DynImp.Source

/-!
# Written numbers

What is written for a number is a literal of it, as long as no exponent is written.

* **Layer A: literals.** What it means that a text is a literal of a number.
* **Layer B: positional notation.** An integer is such a text, and so is a decimal in positional
  notation, which without places is the one of an integer.
* **Layer C: exponents.** A text with an exponent mark is no literal at all.
-/

namespace DynImp

/-- The number that a value is, if it is one. -/
def Scalar.number? : Scalar → Option ℚ
  | .integer i => some i
  | .decimal d => some d.toRat
  | _ => none

/-! ## §1 Literals -/

namespace Token

/-- **Plain notation.** An optional minus sign and digits, and optionally a point and digits. -/
def IsNumber (cs : List Char) : Prop := IsInteger cs ∨ IsDecimal cs

/-- **Literals of a number.** The text is scanned as one token, an integer or a decimal, which read
on its own is an expression with this number for its value. -/
def Denotes (text : String) (x : ℚ) : Prop :=
  ∃ kind value, (kind = .integer ∨ kind = .decimal) ∧ scan text = .ok [⟨kind, text, 0⟩] ∧
    Expr.ofTokens [⟨kind, text, 0⟩] = .ok (.literal 0 () value, []) ∧ value.number? = some x

variable {kind : Kind} {text : String} {x : ℚ}

theorem Denotes.of_scalar? {value : Scalar} (hkind : kind = .integer ∨ kind = .decimal)
    (hspells : kind.Spells text.toList) (hscalar : scalar? ⟨kind, text, 0⟩ = some value)
    (hvalue : value.number? = some x) : Denotes text x := by
  refine ⟨kind, value, hkind, ?_, Expr.ofTokens_scalar hscalar, hvalue⟩
  -- Only a minus sign cannot end a text.
  have hnumber : ¬ (kind = .operator ∧ text.toList = ['-']) := by
    rintro ⟨rfl, -⟩
    obtain hkind | hkind := hkind <;> cases hkind
  have hscan := scan_spelling hspells (Kind.endsBefore_nil hnumber)
  rwa [String.ofList_toList] at hscan

/-- A literal of a number is in plain notation. -/
theorem Denotes.isNumber (h : Denotes text x) : IsNumber text.toList := by
  obtain ⟨kind, _, hkind, hscan, -⟩ := h
  have hspelled : kind.Spells text.toList := spelled_of_scan hscan _ List.mem_cons_self
  rcases hkind with rfl | rfl
  · exact .inl hspelled
  · exact .inr hspelled

/-- There is no exponent in plain notation. -/
theorem IsNumber.not_exponent {cs : List Char} (h : IsNumber cs) :
    ∀ c ∈ cs, Decimal.isExponentMark c = false := by
  have hinteger : ∀ ds, IsInteger ds → ∀ c ∈ ds, Decimal.isExponentMark c = false := by
    rintro _ ⟨sign, ds, hsign, hmagnitude, rfl⟩
    rw [List.forall_mem_append]
    refine ⟨?_, fun c hc => (Decimal.isDigit_ne (hmagnitude.digits.2 c hc)).1⟩
    rcases hsign with rfl | rfl
    · exact nofun
    · exact List.forall_mem_singleton.mpr rfl
  rcases h with h | ⟨whole, fraction, hwhole, -, hfraction, rfl⟩
  · exact hinteger cs h
  · rw [List.forall_mem_append, List.forall_mem_cons]
    exact ⟨hinteger whole hwhole, rfl, fun c hc => (Decimal.isDigit_ne (hfraction c hc)).1⟩

end Token

open Token (Denotes IsNumber)

/-! ## §2 Positional notation -/

namespace Numeral

/-- **Integers** are written as literals. -/
theorem denotes_signedText (i : ℤ) : Denotes (signedText 10 i) i := by
  have hscalar : Token.scalar? ⟨.integer, signedText 10 i, 0⟩ = some (.integer i) := by
    simp [Token.scalar?, ofText?_signedText]
  exact .of_scalar? (.inl rfl) (isInteger_signedText i) hscalar rfl

/-- Ten times a number has one more digit, a zero. -/
theorem text_mul_pow {n : ℕ} (hn : n ≠ 0) (k : ℕ) :
    text 10 (n * 10 ^ k) = text 10 n ++ Decimal.zeros k := by
  induction k with
  | zero => simp [Decimal.zeros]
  | succ k ih =>
      have hpos : 0 < n * 10 ^ k := Nat.mul_pos (Nat.pos_of_ne_zero hn) (by positivity)
      have hmore : digits 10 (n * 10 ^ (k + 1)) = digits 10 (n * 10 ^ k) ++ [0] := by
        rw [pow_succ, ← mul_assoc, digits_of_le (by decide) (by omega),
          Nat.mul_div_cancel _ (by decide), Nat.mul_mod_left]
      rw [text, hmore, List.map_append, ← text, ih, List.append_assoc, Decimal.zeros, Decimal.zeros,
        List.replicate_succ']
      rfl

end Numeral

namespace Decimal

variable {d : Decimal}

/-- **Positional range.** Zero, and what is written without an exponent: not too many zeros follow
the point, and not too many are appended. -/
def IsPlain (d : Decimal) : Prop :=
  d.isZero = true ∨
    if 0 < d.scale then
      d.scale - (Numeral.text 10 d.unscaled.natAbs).length ≤ (layout.leadingZeros : ℤ)
    else -d.scale ≤ layout.trailingZeros

instance : DecidablePred IsPlain := fun d => inferInstanceAs (Decidable (d.isZero = true ∨ _))

/-- The text of a decimal other than zero. -/
theorem text_toList (h : d.isZero = false) :
    d.text.toList =
      Numeral.sign d.unscaled ++ layOut (Numeral.text 10 d.unscaled.natAbs) d.scale := by
  by_cases hneg : d.unscaled < 0 <;> simp [text, h, Numeral.sign, hneg]

/-- A decimal with places is written as a literal with these places. -/
theorem denotes_positional (h : 0 < d.scale) : Denotes (String.ofList d.positional) d.toRat := by
  have hscalar : Token.scalar? ⟨.decimal, String.ofList d.positional, 0⟩ = some (.decimal d) := by
    simp [Token.scalar?, ofText?_positional h]
  refine .of_scalar? (.inr rfl) ?_ hscalar rfl
  rw [String.toList_ofList]
  exact isDecimal_positional h

/-- Without places zeros are appended, as many as are missing before the point. -/
theorem text_of_scale_nonpos (hzero : d.isZero = false) (hscale : d.scale ≤ 0)
    (hrange : -d.scale ≤ layout.trailingZeros) :
    d.text = Numeral.signedText 10 (shifted d.unscaled (-d.scale).toNat) := by
  have hunscaled : d.unscaled.natAbs ≠ 0 := by simpa [isZero] using hzero
  have hpower : (0 : ℤ) < 10 ^ (-d.scale).toNat := by positivity
  have hsign : Numeral.sign (d.unscaled * 10 ^ (-d.scale).toNat) = Numeral.sign d.unscaled := by
    simp only [Numeral.sign, mul_neg_iff, hpower, hpower.not_gt, and_true, and_false, false_or]
  have hshifted : shifted d.unscaled (-d.scale).toNat = d.unscaled * 10 ^ (-d.scale).toNat := by
    rw [shifted_eq, Nat.pow_eq, Nat.cast_pow, Nat.cast_ofNat]
  rw [← String.toList_inj, text_toList hzero, layOut, if_neg (by omega), if_pos hrange, hshifted,
    Numeral.signedText_toList, hsign, Int.natAbs_mul, Int.natAbs_pow,
    ← Numeral.text_mul_pow hunscaled]
  rfl

/-- The integer that a decimal without places is. -/
theorem cast_shifted (h : d.scale ≤ 0) :
    ((shifted d.unscaled (-d.scale).toNat : ℤ) : ℚ) = d.toRat := by
  rw [shifted_eq, Int.cast_mul, Int.cast_natCast, cast_pow_toNat (by omega), toRat]

/-- **Decimals in positional range** are written as literals. -/
theorem IsPlain.denotes (h : d.IsPlain) : Denotes d.text d.toRat := by
  cases hzero : d.isZero with
  | true =>
      have htext : d.text = Numeral.signedText 10 0 := by
        rw [text, if_pos hzero]
        decide +kernel
      rw [htext, toRat_eq_zero.mpr hzero]
      exact_mod_cast Numeral.denotes_signedText 0
  | false =>
      have hrange := h.resolve_left (by simp [hzero])
      split at hrange
      next hscale =>
        have htext : d.text = String.ofList d.positional := by
          rw [← String.toList_inj, text_toList hzero, layOut, if_pos hscale,
            if_neg (by omega), positional, String.toList_ofList]
        rw [htext]
        exact denotes_positional hscale
      next hscale =>
        rw [text_of_scale_nonpos hzero (by omega) hrange, ← cast_shifted (by omega)]
        exact Numeral.denotes_signedText _

/-! ## §3 Exponents -/

/-- Out of positional range an exponent is written. -/
theorem exists_exponent (h : ¬ d.IsPlain) : ∃ c ∈ d.text.toList, isExponentMark c = true := by
  obtain ⟨hzero, hrange⟩ := not_or.mp h
  rw [text_toList (Bool.not_eq_true _ ▸ hzero), layOut]
  split at hrange
  next hscale =>
    rw [if_pos hscale, if_pos (by omega)]
    exact ⟨'E', by simp, rfl⟩
  next hscale =>
    rw [if_neg hscale, if_neg hrange]
    exact ⟨'e', by simp, rfl⟩

/-- **Plain notation** is what a decimal in positional range is written in, and no other one. -/
theorem isPlain_iff_isNumber : d.IsPlain ↔ IsNumber d.text.toList := by
  refine ⟨fun h => h.denotes.isNumber, fun h => ?_⟩
  by_contra hplain
  obtain ⟨c, hc, hmark⟩ := exists_exponent hplain
  rw [h.not_exponent c hc] at hmark
  cases hmark

end Decimal

/-! ## §4 Printing -/

namespace Scalar

/-- Whether a value is written without an exponent. -/
def IsPlain : Scalar → Prop
  | .decimal d => d.IsPlain
  | _ => True

/-- **What is printed for a number** is the text of the number.  In positional range it is a literal
of the number.  Out of that range it has an exponent and is no literal of any. -/
theorem number_written (s : Scalar) (x : ℚ) (hs : s.number? = some x) :
    (∀ h : Heap, h.text? (.scalar s) = some s.text) ∧
      (∀ heap cells written,
        Eval.callBuiltin .print [.scalar s] ⟨heap, cells, ⟨written, none⟩⟩ =
          (.done .nil, ⟨heap, cells, ⟨written ++ (s.text ++ "\n"), none⟩⟩)) ∧
      (s.IsPlain ↔ IsNumber s.text.toList) ∧
      (s.IsPlain → Denotes s.text x) ∧
      (¬ s.IsPlain → (∃ c ∈ s.text.toList, Decimal.isExponentMark c = true) ∧
        ∀ y, ¬ Denotes s.text y) := by
  have htext (h : Heap) : h.text? (.scalar s) = some s.text := by
    rw [Heap.text?, Heap.textWithin.eq_def]
  refine ⟨htext, fun heap cells written => ?_, ?_⟩
  · simp only [Eval.callBuiltin, Eval.print, Eval.Run.bind_apply, Eval.World.ask, htext,
      Eval.World.emit]
    rfl
  cases s with
  | integer i =>
      obtain rfl : (i : ℚ) = x := Option.some.inj hs
      have hdenotes := Numeral.denotes_signedText i
      exact ⟨⟨fun _ => hdenotes.isNumber, fun _ => trivial⟩, fun _ => hdenotes,
        fun h => absurd trivial h⟩
  | decimal d =>
      obtain rfl : d.toRat = x := Option.some.inj hs
      exact ⟨Decimal.isPlain_iff_isNumber, Decimal.IsPlain.denotes, fun h =>
        ⟨Decimal.exists_exponent h, fun y hy => h (Decimal.isPlain_iff_isNumber.mpr hy.isNumber)⟩⟩
  | _ => cases hs

/-- A price is written with both its places. -/
theorem price_written :
    Scalar.text (.decimal ⟨1250, 2⟩) = "12.50" ∧ Denotes "12.50" (25 / 2) := by
  have htext : Scalar.text (.decimal ⟨1250, 2⟩) = "12.50" := by decide +kernel
  have hvalue : number? (.decimal ⟨1250, 2⟩) = some (25 / 2) := by
    norm_num [number?, Decimal.toRat]
  obtain ⟨-, -, -, hplain, -⟩ := number_written _ _ hvalue
  have hrange : Decimal.IsPlain ⟨1250, 2⟩ := by decide +kernel
  have hdenotes := hplain hrange
  rw [htext] at hdenotes
  exact ⟨htext, hdenotes⟩

end Scalar

/-- A literal with seven places is printed with an exponent, and that is no literal. -/
theorem Source.small_literal_printed :
    Source.run 100 "FUN main(): Integer DO print(0.0000001); RETURN 0; END" =
        ⟨.done "0", "1E-7\n"⟩ ∧
      ¬ IsNumber "1E-7".toList ∧ ∀ y, ¬ Denotes "1E-7" y := by
  have hnumber : ¬ IsNumber "1E-7".toList := by
    intro h
    have hmark := h.not_exponent 'E' (by decide +kernel)
    contradiction
  exact ⟨by decide +kernel, hnumber, fun y hy => hnumber hy.isNumber⟩

end DynImp
