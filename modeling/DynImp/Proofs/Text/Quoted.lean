import DynImp.Proofs.Grammar.Literals
import DynImp.Text.Quoted

/-!
# Quoted text is read in one way

What a character is written as between quotes tells the character and where it ends, so the
text between two quotes can be made out from the front: which characters it has, and what
follows the closing quote.

* **Layer A: hexadecimal numbers** are written in one way, and without a brace.
* **Layer B: characters** are written plainly, with a short escape, or by their number.
* **Layer C: quoted texts.**
-/

namespace DynImp.Text

/-! ## §1 Hexadecimal numbers -/

theorem digitChar_inj : ∀ d < 16, ∀ e < 16, Nat.digitChar d = Nat.digitChar e → d = e := by
  decide

theorem digitChar_ne_brace : ∀ d < 16, Nat.digitChar d ≠ '\x7d' := by decide

/-- The numeral of `n` is not empty and ends with the digit of its remainder. -/
theorem toDigits_eq (n : Nat) :
    Nat.toDigits 16 n =
      (if n < 16 then [] else Nat.toDigits 16 (n / 16)) ++ [Nat.digitChar (n % 16)] := by
  rw [Nat.toDigits_eq_if (by decide)]
  split
  · next h => rw [Nat.mod_eq_of_lt h, List.nil_append]
  · rfl

theorem ne_brace_of_mem_toDigits (n : Nat) : ∀ c ∈ Nat.toDigits 16 n, c ≠ '\x7d' := by
  induction n using Nat.strongRecOn with
  | ind n ih =>
      have hlast := digitChar_ne_brace (n % 16) (Nat.mod_lt _ (by decide))
      rw [toDigits_eq, List.forall_mem_append, List.forall_mem_singleton]
      refine ⟨?_, hlast⟩
      split
      · exact List.forall_mem_nil _
      · exact ih _ (by omega)

theorem toDigits_inj (n m : Nat) (h : Nat.toDigits 16 n = Nat.toDigits 16 m) : n = m := by
  induction n using Nat.strongRecOn generalizing m with
  | ind n ih =>
      -- The last digits are the same, and so are the numerals in front of them, if there are any.
      rw [toDigits_eq n, toDigits_eq m] at h
      obtain ⟨hfront, hlast⟩ := List.append_inj' h rfl
      have hmod := digitChar_inj _ (Nat.mod_lt n (by decide)) _ (Nat.mod_lt m (by decide))
        (List.cons.inj hlast).1
      have hne : ∀ k, Nat.toDigits 16 k ≠ [] := fun k => Nat.toDigits_ne_nil
      split at hfront <;> split at hfront
      · omega
      · exact absurd hfront.symm (hne _)
      · exact absurd hfront (hne _)
      · have := ih (n / 16) (by omega) _ hfront
        omega

/-! ## §2 Characters -/

/-- The characters with a short escape, each with the letter after the backslash. -/
def shortEscapes (quote : Char) : List (Char × Char) :=
  [('\x00', '0'), ('\t', 't'), ('\r', 'r'), ('\n', 'n'), ('\\', '\\'), (quote, quote)]

/-- **Written characters.** What may stand for a character between two copies of `quote`. -/
inductive Shows (quote c : Char) : List Char → Prop where
  | plain : c ≠ '\\' → c ≠ quote → Shows quote c [c]
  | short {letter : Char} : (c, letter) ∈ shortEscapes quote → Shows quote c ['\\', letter]
  | number : Shows quote c (['\\', 'u', '\x7b'] ++ codePointText c ++ ['\x7d'])

theorem shows_quoteChar (quote c : Char) : Shows quote c (quoteChar quote c) := by
  have hmem : ∀ e ∈ shortEscapes quote, e.1 = c → Shows quote c ['\\', e.2] := by
    rintro e he rfl
    exact .short he
  unfold quoteChar
  split
  · next hc => exact hmem ('\x00', '0') (by simp [shortEscapes]) hc.symm
  split
  · next hc => exact hmem ('\t', 't') (by simp [shortEscapes]) hc.symm
  split
  · next hc => exact hmem ('\r', 'r') (by simp [shortEscapes]) hc.symm
  split
  · next hc => exact hmem ('\n', 'n') (by simp [shortEscapes]) hc.symm
  split
  · next hc =>
      obtain rfl | rfl := hc
      · exact hmem ('\\', '\\') (by simp [shortEscapes]) rfl
      · exact hmem (c, c) (by simp [shortEscapes]) rfl
  next hplain =>
  split
  · exact .number
  · exact .plain (not_or.mp hplain).1 (not_or.mp hplain).2

variable {quote : Char}

/-- Short escapes differ in their letters, and none of them announces a number. -/
theorem shortEscapes_apart (hquote : IsQuote quote) :
    (∀ e ∈ shortEscapes quote, ∀ f ∈ shortEscapes quote, e.2 = f.2 → e.1 = f.1) ∧
      ∀ e ∈ shortEscapes quote, e.2 ≠ 'u' := by
  obtain rfl | rfl := hquote <;> decide

theorem Shows.ne_nil {c : Char} {cs : List Char} (h : Shows quote c cs) : cs ≠ [] := by
  cases h <;> simp

/-- What stands for a character does not look like the closing quote. -/
theorem Shows.head_ne {c d : Char} {cs : List Char} (h : Shows quote c (d :: cs))
    (hquote : IsQuote quote) : d ≠ quote := by
  have hslash : '\\' ≠ quote := by obtain rfl | rfl := hquote <;> decide
  cases h with
  | plain _ hc => exact hc
  | short => exact hslash
  | number => exact hslash

/-- **Characters are made out from the front.** -/
theorem Shows.append_inj {c d : Char} {cs ds rest rest' : List Char} (hquote : IsQuote quote)
    (hc : Shows quote c cs) (hd : Shows quote d ds) (h : cs ++ rest = ds ++ rest') :
    c = d ∧ rest = rest' := by
  obtain ⟨hletters, hnumber⟩ := shortEscapes_apart hquote
  cases hc with
  | plain hslash =>
      cases hd with
      | plain => exact List.cons.inj h
      | short => exact absurd (List.cons.inj h).1 hslash
      | number => exact absurd (List.cons.inj h).1 hslash
  | short hmem =>
      cases hd with
      | plain hslash => exact absurd (List.cons.inj h).1.symm hslash
      | short hmem' =>
          obtain ⟨hletter, htail⟩ := List.cons.inj (List.cons.inj h).2
          exact ⟨hletters _ hmem _ hmem' hletter, htail⟩
      | number => exact absurd (List.cons.inj (List.cons.inj h).2).1 (hnumber _ hmem)
  | number =>
      cases hd with
      | plain hslash => exact absurd (List.cons.inj h).1.symm hslash
      | short hmem => exact absurd (List.cons.inj (List.cons.inj h).2).1.symm (hnumber _ hmem)
      | number =>
          -- Both numbers end at the first brace.
          simp only [List.append_assoc] at h
          have htails := List.append_cancel_left h
          have hspan : ∀ c : Char, ∀ rest : List Char,
              (codePointText c ++ (['\x7d'] ++ rest)).takeWhile (· ≠ '\x7d') = codePointText c ∧
              (codePointText c ++ (['\x7d'] ++ rest)).dropWhile (· ≠ '\x7d') = '\x7d' :: rest :=
            fun c rest => Token.span_append
              (fun d hd => by simpa using ne_brace_of_mem_toDigits _ d hd)
              (Token.stopsAt_cons.mpr (by simp))
          have htext : codePointText c = codePointText d := by
            rw [← (hspan c rest).1, htails, (hspan d rest').1]
          have hrest : '\x7d' :: rest = '\x7d' :: rest' := by
            rw [← (hspan c rest).2, htails, (hspan d rest').2]
          exact ⟨Char.toNat_inj.mp (toDigits_inj _ _ htext), (List.cons.inj hrest).2⟩

/-! ## §3 Texts -/

/-- The characters between quotes are made out one by one, up to the closing quote. -/
theorem flatMap_quoteChar_append_inj (hquote : IsQuote quote) {cs ds rest rest' : List Char}
    (h : cs.flatMap (quoteChar quote) ++ quote :: rest =
      ds.flatMap (quoteChar quote) ++ quote :: rest') : cs = ds ∧ rest = rest' := by
  have hend : ∀ (c : Char) (cs rest rest' : List Char),
      quote :: rest ≠ (c :: cs).flatMap (quoteChar quote) ++ rest' := by
    intro c cs rest rest' heq
    -- A character is written as something, and this does not begin with the quote.
    have hshows := shows_quoteChar quote c
    rw [List.flatMap_cons, List.append_assoc] at heq
    cases hchar : quoteChar quote c with
    | nil => exact hshows.ne_nil hchar
    | cons d ds =>
        rw [hchar] at hshows heq
        exact hshows.head_ne hquote (List.cons.inj heq).1.symm
  induction cs generalizing ds with
  | nil =>
      cases ds with
      | nil => exact ⟨rfl, (List.cons.inj h).2⟩
      | cons d ds => exact absurd h (hend d ds _ _)
  | cons c cs ih =>
      cases ds with
      | nil => exact absurd h.symm (hend c cs _ _)
      | cons d ds =>
          rw [List.flatMap_cons, List.flatMap_cons, List.append_assoc, List.append_assoc] at h
          obtain ⟨rfl, htail⟩ :=
            (shows_quoteChar quote c).append_inj hquote (shows_quoteChar quote d) h
          obtain ⟨rfl, hrest⟩ := ih htail
          exact ⟨rfl, hrest⟩

/-- **Quoted texts are made out from the front.** -/
theorem quoted_append_inj (hquote : IsQuote quote) {cs ds rest rest' : List Char}
    (h : quoted quote cs ++ rest = quoted quote ds ++ rest') : cs = ds ∧ rest = rest' := by
  simp only [quoted, List.cons_append, List.append_assoc, List.nil_append] at h
  exact flatMap_quoteChar_append_inj hquote (List.cons.inj h).2

end DynImp.Text
