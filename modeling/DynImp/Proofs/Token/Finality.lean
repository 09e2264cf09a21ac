import DynImp.Proofs.Token.Lookahead

/-!
# Faults of texts are final

Scanning stops at the first fault, so a fault is decided by what stands in front of it and
by little more: the character where it shows and the one after it.

* **Layer A: agreement** of two texts past a byte.
* **Layer B: lexemes.** A scanner that finds a fault finds it in all texts that agree past it.
* **Layer C: texts.** What was scanned in front of the fault is the same in all of them.
-/

namespace DynImp

namespace Token

open DynImp.Numeral (startsWithDigit)
open DynImp.Text

/-! ## §1 Agreement -/

/-- **Agreement.** Two texts agree up to the byte `n`, in the character there and in the one after
it. -/
def AgreePast (n : Nat) (cs ds : List Char) : Prop :=
  ∃ before c d after after', cs = before ++ c :: d :: after ∧ ds = before ++ c :: d :: after' ∧
    width before = n

namespace AgreePast

variable {n : Nat} {cs ds : List Char}

/-- Texts that agree past a part of one of them have this part in common. -/
theorem exists_append (front : List Char) (h : AgreePast (width front + n) (front ++ cs) ds) :
    ∃ es, ds = front ++ es ∧ AgreePast n cs es := by
  obtain ⟨before, c, d, after, after', heq, rfl, hwidth⟩ := h
  obtain ⟨mid, rfl, rfl⟩ := exists_append_of_width_le heq (by omega)
  rw [width_append] at hwidth
  exact ⟨mid ++ c :: d :: after', List.append_assoc .., mid, c, d, after, after', rfl, rfl,
    by omega⟩

theorem of_append (front : List Char)
    (h : AgreePast (width front + n) (front ++ cs) (front ++ ds)) : AgreePast n cs ds := by
  obtain ⟨es, heq, hes⟩ := h.exists_append
  rwa [List.append_cancel_left heq]

/-- Texts that agree past the end of a part of them agree in the two characters there. -/
theorem next (front : List Char) (h : AgreePast (width front) (front ++ cs) (front ++ ds)) :
    ∃ c d after after', cs = c :: d :: after ∧ ds = c :: d :: after' := by
  obtain ⟨before, c, d, after, after', hcs, hds, hwidth⟩ := of_append (n := 0) front h
  obtain rfl := width_eq_zero hwidth
  exact ⟨c, d, after, after', hcs, hds⟩

/-- Nothing agrees with a text past its end. -/
theorem not_end (cs ds : List Char) : ¬ AgreePast (width cs) cs ds := by
  rintro ⟨before, c, d, after, after', rfl, -, hwidth⟩
  have := c.utf8Size_pos
  rw [width_append, width_cons] at hwidth
  omega

theorem head?_eq (h : AgreePast n cs ds) : ds.head? = cs.head? := by
  obtain ⟨before, c, d, after, after', rfl, rfl, -⟩ := h
  cases before <;> rfl

end AgreePast

/-! ## §2 Lexemes -/

section Faults

variable {n : Nat} {fault : Fault} {first : Char} {sign lead rest rest' : List Char}

theorem startsWithDigit_of_head {cs ds : List Char} (h : ds.head? = cs.head?) :
    startsWithDigit ds = startsWithDigit cs := by
  cases cs <;> cases ds <;> simp_all [startsWithDigit]

/-- Digits and a point without a digit behind it. -/
theorem number_of_point {digits : List Char} (hdigits : ∀ c ∈ digits, c.isDigit)
    (hzero : ¬ (first = '0' ∧ startsWithDigit (digits ++ '.' :: rest)))
    (hrest : ¬ startsWithDigit rest) :
    number sign first (digits ++ '.' :: rest) =
      .error (width (sign ++ [first] ++ digits), .trailingDecimalPoint) := by
  have hstop : StopsAt Char.isDigit ('.' :: rest) := stopsAt_cons.mpr not_isDigit_point
  obtain ⟨htake, hdrop⟩ := span_append hdigits hstop
  unfold number
  rw [if_neg hzero, htake, hdrop]
  exact if_neg hrest

theorem number_fault_of_agree {text : List Char} (h : number sign first rest = .error (n, fault))
    (hagree : AgreePast n (sign ++ first :: rest) text) :
    ∃ rest', text = sign ++ first :: rest' ∧ number sign first rest' = .error (n, fault) := by
  have hcons : ∀ cs, sign ++ first :: cs = (sign ++ [first]) ++ cs := by simp
  rw [hcons] at hagree
  unfold number at h
  split at h
  · next hzero =>
      cases h
      obtain ⟨rest', rfl, -⟩ := AgreePast.exists_append (n := 0) _ hagree
      obtain ⟨c, d, after, after', rfl, rfl⟩ := hagree.next _
      exact ⟨_, (hcons _).symm, if_pos hzero⟩
  · next hzero =>
      split at h
      · next tail htail =>
          split at h
          · cases h
          · next hpoint =>
              cases h
              have hdigits : ∀ c ∈ rest.takeWhile Char.isDigit, c.isDigit :=
                fun c hc => mem_takeWhile_isDigit hc
              have hrest : rest = rest.takeWhile Char.isDigit ++ '.' :: tail := by
                rw [← htail, List.takeWhile_append_dropWhile]
              generalize rest.takeWhile Char.isDigit = digits at hdigits hrest hagree ⊢
              subst hrest
              rw [width_append] at hagree
              obtain ⟨rest', rfl, hsame⟩ := hagree.exists_append _
              have hzero' : ¬ (first = '0' ∧ startsWithDigit rest') := by
                rwa [startsWithDigit_of_head hsame.head?_eq]
              -- The fault shows at the point, so the digits in front of it are the same.
              obtain ⟨es, rfl, -⟩ := AgreePast.exists_append (n := 0) _ hsame
              obtain ⟨c, d, after, after', hpoints, rfl⟩ := hsame.next _
              obtain ⟨rfl, rfl⟩ := List.cons.inj hpoints
              exact ⟨_, (hcons _).symm, number_of_point hdigits hzero' hpoint⟩
      · cases h

theorem closeCharacter_fault_of_agree {text : List Char}
    (h : closeCharacter lead rest = .error (n, fault)) (hagree : AgreePast n (lead ++ rest) text) :
    ∃ rest', text = lead ++ rest' ∧ closeCharacter lead rest' = .error (n, fault) := by
  unfold closeCharacter at h
  split at h
  · cases h
  · next hquote =>
      cases h
      obtain ⟨rest', rfl, -⟩ := AgreePast.exists_append (n := 0) _ hagree
      obtain ⟨c, d, after, after', rfl, rfl⟩ := hagree.next _
      have hc : c ≠ '\'' := fun heq => hquote _ (by rw [heq])
      exact ⟨_, rfl, by simp [closeCharacter, hc, atLineEnd]⟩

theorem character_of_plain {c : Char} (hquote : c ≠ '\'') (hslash : c ≠ '\\')
    (hend : atLineEnd (c :: rest) = false) :
    character (c :: rest) = closeCharacter ['\'', c] rest := by
  rw [character]
  · simp [hend]
  all_goals simp_all

theorem character_of_lineEnd {c : Char} (hend : atLineEnd (c :: rest)) :
    character (c :: rest) = .error (1, .unterminatedCharacter) := by
  obtain rfl | rfl : c = '\n' ∨ c = '\r' := by simpa [atLineEnd] using hend
  · rw [character] <;> simp [atLineEnd]
  · rw [character] <;> simp [atLineEnd]

theorem character_fault_of_agree (h : character rest = .error (n, fault))
    (hagree : AgreePast n ('\'' :: rest) ('\'' :: rest')) :
    character rest' = .error (n, fault) := by
  -- A fault right behind the quote is decided by the character there.
  have hquote : n = 1 → AgreePast (width ['\'']) (['\''] ++ rest) (['\''] ++ rest') := by
    rintro rfl
    exact hagree
  unfold character at h
  split at h
  · cases h
    obtain ⟨c, d, after, after', heq, rfl⟩ := (hquote rfl).next _
    obtain ⟨rfl, -⟩ := List.cons.inj heq
    rfl
  · next letter tail =>
      split at h
      · next hletter =>
          obtain ⟨tail', heq, hclose⟩ := closeCharacter_fault_of_agree h hagree
          obtain ⟨-, rfl⟩ := List.cons.inj heq
          simpa [character, hletter] using hclose
      · next hletter =>
          cases h
          -- The fault shows at the letter, so the quote and the backslash are in both texts.
          have hslash : AgreePast (width ['\'', '\\'] + 0) (['\'', '\\'] ++ letter :: tail)
              ('\'' :: rest') := hagree
          obtain ⟨es, heq, hes⟩ := hslash.exists_append _
          obtain ⟨-, rfl⟩ := List.cons.inj heq
          obtain ⟨c, d, after, after', hcs, rfl⟩ := AgreePast.next [] hes
          obtain ⟨rfl, -⟩ := List.cons.inj hcs
          simp [character, hletter]
  · cases h
    exact absurd hagree (AgreePast.not_end ['\'', '\\'] _)
  · next c tail hfirst hescape hlone =>
      split at h
      · next hend =>
          cases h
          obtain ⟨d, e, after, after', heq, rfl⟩ := (hquote rfl).next _
          obtain ⟨rfl, -⟩ := List.cons.inj heq
          exact character_of_lineEnd hend
      · next hend =>
          obtain ⟨tail', heq, hclose⟩ := closeCharacter_fault_of_agree h hagree
          obtain ⟨-, rfl⟩ := List.cons.inj heq
          have hslash := ne_backslash hlone hescape
          have hplain : c ≠ '\'' := fun heq => hfirst heq
          have hend' : atLineEnd (c :: tail') = false := by simpa [atLineEnd] using hend
          exact (character_of_plain hplain hslash hend').trans hclose
  · cases h
    exact absurd hagree (AgreePast.not_end ['\''] _)

theorem stringBody_of_plain {pos : Nat} {c : Char} {f : Nat × Fault} (hquote : c ≠ '"')
    (hslash : c ≠ '\\') (hbreak : ¬ (c = '\n' ∨ c = '\r'))
    (h : stringBody (pos + c.utf8Size) rest = .error f) :
    stringBody pos (c :: rest) = .error f := by
  unfold stringBody
  split <;> simp_all

/-- The distance is counted from the place that the position names. -/
theorem stringBody_fault_of_agree {pos m : Nat} (h : stringBody pos rest = .error (n, fault))
    (hn : n = pos + m) (hagree : AgreePast m rest rest') :
    stringBody pos rest' = .error (n, fault) := by
  -- Along the walk over the units of the first text: the units that it has passed are in both.
  fun_induction stringBody pos rest generalizing m rest' with
  | case3 pos letter rest hletter f hf ih =>
      cases h
      obtain ⟨m', rfl, -⟩ := stringBody_fault hf
      obtain rfl : m = width ['\\', letter] + m' := by
        rw [width_cons, width_cons, utf8Size_of_isEscapeLetter hletter, width_nil,
          show '\\'.utf8Size = 1 from rfl]
        omega
      obtain ⟨es, rfl, hes⟩ := AgreePast.exists_append ['\\', letter] hagree
      have hbody := ih hf rfl hes
      simp [stringBody, hletter, hbody]
  | case4 pos letter rest hletter =>
      cases h
      obtain rfl : m = width ['\\'] + 0 := (Nat.add_left_cancel hn).symm
      obtain ⟨es, rfl, hes⟩ := AgreePast.exists_append ['\\'] hagree
      obtain ⟨c, d, after, after', hcs, rfl⟩ := AgreePast.next [] hes
      obtain ⟨rfl, -⟩ := List.cons.inj hcs
      simp [stringBody, hletter]
  | case5 pos =>
      cases h
      obtain rfl : m = width ['\\'] := (Nat.add_left_cancel hn).symm
      exact absurd hagree (AgreePast.not_end _ _)
  | case6 pos c rest hquote _ _ hbreak =>
      cases h
      obtain rfl : m = 0 := by omega
      obtain ⟨d, e, after, after', hcs, rfl⟩ := AgreePast.next [] hagree
      obtain ⟨rfl, -⟩ := List.cons.inj hcs
      obtain rfl | rfl := hbreak <;> simp [stringBody]
  | case8 pos c rest hquote hescape hlone hbreak f hf ih =>
      cases h
      obtain ⟨m', rfl, -⟩ := stringBody_fault hf
      obtain rfl : m = width [c] + m' := by
        rw [width_cons, width_nil]
        omega
      obtain ⟨es, rfl, hes⟩ := AgreePast.exists_append [c] hagree
      have hslash := ne_backslash hlone hescape
      exact stringBody_of_plain (fun heq => hquote heq) hslash hbreak (ih hf (by simp) hes)
  | case9 pos =>
      cases h
      obtain rfl : m = width [] := by simpa using hn
      exact absurd hagree (AgreePast.not_end _ _)
  | _ => cases h

theorem string_fault_of_agree (h : string rest = .error (n, fault))
    (hagree : AgreePast n ('"' :: rest) ('"' :: rest')) : string rest' = .error (n, fault) := by
  unfold string at h
  split at h
  · cases h
  · next f hf =>
      cases h
      obtain ⟨m, rfl, -⟩ := stringBody_fault hf
      have hrest : AgreePast m rest rest' := AgreePast.of_append ['"'] hagree
      rw [string, stringBody_fault_of_agree hf rfl hrest]

theorem pair_fault_of_agree {second : Char} (h : pair first second rest = .error (n, fault))
    (hagree : AgreePast n (first :: rest) (first :: rest')) :
    pair first second rest' = .error (n, fault) := by
  obtain rfl := pair_fault h
  obtain ⟨c, d, after, after', hfirst, hfirst'⟩ := AgreePast.next [] hagree
  obtain ⟨rfl, rfl⟩ := List.cons.inj hfirst
  obtain ⟨-, rfl⟩ := List.cons.inj hfirst'
  unfold pair at h ⊢
  dsimp only at h ⊢
  split at h
  · cases h
  · next hd =>
      rw [if_neg hd]
      exact h

/-- A minus sign alone is a fault at the end only, and there is more of the text. -/
theorem minus_fault_of_agree (h : minus rest = .error (n, fault))
    (hagree : AgreePast n ('-' :: rest) ('-' :: rest')) : minus rest' = .error (n, fault) := by
  cases rest with
  | nil =>
      cases h
      obtain ⟨c, d, after, after', hcs, -⟩ := AgreePast.next [] hagree
      cases hcs
  | cons digit tail =>
      by_cases hdigit : digit.isDigit
      · rw [minus_digit hdigit] at h
        obtain ⟨tail', heq, hnumber⟩ := number_fault_of_agree h hagree
        obtain ⟨-, rfl⟩ := List.cons.inj heq
        exact (minus_digit hdigit).trans hnumber
      · rw [minus_other hdigit] at h
        cases h

/-- **Faults of lexemes** are found in all texts that agree past them. -/
theorem lexeme_fault_of_agree (h : lexeme first rest = .error (n, fault))
    (hagree : AgreePast n (first :: rest) (first :: rest')) :
    lexeme first rest' = .error (n, fault) := by
  -- The texts begin with the same character, so one branch scans both.
  have hbranch := lexeme_branch first
  generalize lexeme first = scan at hbranch h ⊢
  cases hbranch with
  | character hfirst => exact character_fault_of_agree h (hfirst ▸ hagree)
  | string hfirst => exact string_fault_of_agree h (hfirst ▸ hagree)
  | number =>
      obtain ⟨_, heq, hnumber⟩ := number_fault_of_agree h hagree
      obtain ⟨-, rfl⟩ := List.cons.inj heq
      exact hnumber
  | pair => exact pair_fault_of_agree h hagree
  | minus hfirst => exact minus_fault_of_agree h (hfirst ▸ hagree)
  | nothing =>
      cases h
      rfl
  | name | equals | mark => cases h

/-! ## §3 Texts -/

theorem scanFrom_fault_of_agree {start : Nat} {cs ds : List Char} {e : LexError}
    (h : scanFrom start cs = .error e) (hn : e.offset = start + n) (hagree : AgreePast n cs ds) :
    scanFrom start ds = .error e := by
  -- Along the walk over the first text.  What was scanned without a fault is in front of it.
  fun_induction scanFrom start cs generalizing n ds with
  | case1 => cases h
  | case2 start c rest hblank ih =>
      obtain ⟨m, hm, -⟩ := scanFrom_fault h
      obtain rfl : n = width [c] + m := by
        rw [width_cons, width_nil]
        omega
      obtain ⟨es, rfl, hes⟩ := AgreePast.exists_append [c] hagree
      rw [List.singleton_append, scanFrom_of_blank hblank]
      exact ih h hm hes
  | case3 start c rest hblank distance f hscanned =>
      cases h
      obtain rfl : distance = n := Nat.add_left_cancel hn
      obtain ⟨es, rfl⟩ : ∃ es, ds = c :: es := List.head?_eq_some_iff.mp hagree.head?_eq
      exact scanFrom_of_fault hblank (lexeme_fault_of_agree hscanned hagree)
  | case4 => cases h
  | case5 start c rest hblank l hscanned e' he ih =>
      cases h
      obtain ⟨m, hm, -⟩ := scanFrom_fault he
      obtain rfl : n = width l.text + m := by omega
      have htext := (lexeme_begins hscanned).text_append_rest
      rw [← htext] at hagree
      obtain ⟨es, rfl, hes⟩ := hagree.exists_append _
      -- The lexeme ends in the other text too: the character behind it is the same.
      have hends := (lexeme_proper hscanned).ends.of_head hes.head?_eq
      obtain ⟨others, hothers⟩ : ∃ others, l.text ++ es = c :: others := by
        obtain ⟨d, text, htext', -⟩ := (lexeme_proper hscanned).spells.exists_cons
        rw [htext', List.cons_append] at htext ⊢
        exact ⟨_, by rw [(List.cons.inj htext).1]⟩
      rw [hothers, scanFrom_of_lexeme hblank (lexeme_of_endsBefore hscanned hends hothers.symm),
        ih he hm hes]
      rfl

end Faults

/-- **Faults are final.** The first fault of a text shows between two characters, and if two more
follow there, then every text that agrees with it so far has the same fault, whatever comes
after. -/
theorem scan_fault_final {text : String} {e : LexError} (h : scan text = .error e) :
    ∃ before after, text.toList = before ++ after ∧ width before = e.offset ∧
      ∀ c d rest, after = c :: d :: rest → ∀ other : String, before ++ [c, d] <+: other.toList →
        scan other = .error e := by
  obtain ⟨before, after, htext, hoffset⟩ := scan_fault h
  refine ⟨before, after, htext, hoffset.symm, ?_⟩
  rintro c d rest rfl other ⟨rest', hother⟩
  have hagree : AgreePast e.offset text.toList other.toList :=
    ⟨before, c, d, rest, rest', htext, by rw [← hother, List.append_assoc]; rfl, hoffset.symm⟩
  exact scanFrom_fault_of_agree h (Nat.zero_add _).symm hagree

/-- A leading zero is a fault whatever comes after its second digit. -/
theorem leadingZero_final : scan "x = 01;" = .error ⟨5, .leadingZero⟩ ∧
    ∀ more, scan ("x = 01;" ++ more) = .error ⟨5, .leadingZero⟩ := by
  have hscan : scan "x = 01;" = .error ⟨5, .leadingZero⟩ := by decide +kernel
  obtain ⟨before, after, htext, hwidth, hfinal⟩ := scan_fault_final hscan
  have hsplit : "x = 0".toList ++ ['1', ';'] = before ++ after := htext
  obtain ⟨mid, rfl, hafter⟩ := exists_append_of_width_le hsplit (Nat.le_of_eq hwidth.symm)
  obtain rfl : mid = [] := by
    rw [width_append] at hwidth
    exact width_eq_zero (Nat.add_left_cancel (hwidth.trans (Nat.add_zero 5).symm))
  refine ⟨hscan, fun more => hfinal '1' ';' [] hafter.symm _ ⟨more.toList, ?_⟩⟩
  rw [String.toList_append]
  rfl

end Token

end DynImp
