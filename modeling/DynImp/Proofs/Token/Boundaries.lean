import DynImp.Proofs.Token.Tiling

/-!
# Positions in a text

The bytes that scanning tells are boundaries of the text: a token begins and ends between
two characters, and so does the part of the text that is scanned before a fault.

* **Layer A: boundaries.** What stands before one is itself a text.
* **Layer B: scanners.** The distance that comes with a fault is the width of what was
  scanned without one.
* **Layer C: texts.**
-/

namespace DynImp

namespace Text

/-! ## §1 Boundaries -/

/-- **Boundaries.** The byte lies between two characters, in front of the first or behind the last
one. -/
def IsBoundary (cs : List Char) (n : Nat) : Prop :=
  ∃ before after, cs = before ++ after ∧ n = width before

theorem isBoundary_width (before after : List Char) :
    IsBoundary (before ++ after) (width before) :=
  ⟨before, after, rfl, rfl⟩

theorem isBoundary_zero (cs : List Char) : IsBoundary cs 0 := isBoundary_width [] cs

theorem IsBoundary.append_left {cs : List Char} {n : Nat} (h : IsBoundary cs n)
    (front : List Char) : IsBoundary (front ++ cs) (width front + n) := by
  obtain ⟨before, after, rfl, rfl⟩ := h
  exact ⟨front ++ before, after, by simp, by simp⟩

/-- The bytes in front of a boundary are the text of the characters there. -/
theorem IsBoundary.isValid {text : String} {n : Nat} (h : IsBoundary text.toList n) :
    (⟨n⟩ : String.Pos.Raw).IsValid text := by
  obtain ⟨before, after, heq, rfl⟩ := h
  refine String.Pos.Raw.isValid_iff_exists_append.mpr
    ⟨String.ofList before, String.ofList after, ?_, ?_⟩
  · rw [← String.ofList_append, ← heq, String.ofList_toList]
  · exact congrArg String.Pos.Raw.mk (utf8ByteSize_ofList before).symm

end Text

namespace Token

open DynImp.Text

/-! ## §2 Scanners -/

theorem number_fault {sign rest : List Char} {first : Char} {n : Nat} {fault : Fault}
    (h : number sign first rest = .error (n, fault)) :
    IsBoundary (sign ++ first :: rest) n := by
  have hlead : sign ++ first :: rest = (sign ++ [first]) ++ rest := by simp
  rw [hlead]
  unfold number at h
  split at h
  · cases h
    exact isBoundary_width _ _
  · split at h
    · split at h
      · cases h
      · cases h
        -- The fault shows at the point, which comes after all digits.
        have hwhole : (sign ++ [first]) ++ rest =
            (sign ++ [first] ++ rest.takeWhile Char.isDigit) ++ rest.dropWhile Char.isDigit := by
          rw [List.append_assoc _ (rest.takeWhile _), List.takeWhile_append_dropWhile]
        rw [hwhole]
        exact isBoundary_width _ _
    · cases h

theorem closeCharacter_fault {lead rest : List Char} {n : Nat} {fault : Fault}
    (h : closeCharacter lead rest = .error (n, fault)) : IsBoundary (lead ++ rest) n := by
  unfold closeCharacter at h
  split at h
  · cases h
  · cases h
    exact isBoundary_width lead rest

theorem character_fault {rest : List Char} {n : Nat} {fault : Fault}
    (h : character rest = .error (n, fault)) : IsBoundary ('\'' :: rest) n := by
  have hquote : ∀ rest, IsBoundary ('\'' :: rest) 1 := isBoundary_width ['\'']
  have hslash : ∀ rest, IsBoundary ('\'' :: '\\' :: rest) 2 := isBoundary_width ['\'', '\\']
  unfold character at h
  split at h
  · cases h
    exact hquote _
  · split at h
    · exact closeCharacter_fault h
    · cases h
      exact hslash _
  · cases h
    exact hslash []
  · split at h
    · cases h
      exact hquote _
    · exact closeCharacter_fault h
  · cases h
    exact hquote []

theorem utf8Size_of_isEscapeLetter {letter : Char} (h : isEscapeLetter letter) :
    letter.utf8Size = 1 := by
  simp only [isEscapeLetter, decide_eq_true_eq] at h
  obtain rfl | rfl | rfl | rfl | rfl | rfl | rfl := h <;> rfl

/-- The distance is counted from the place that the position names. -/
theorem stringBody_fault {pos : Nat} {rest : List Char} {n : Nat} {fault : Fault}
    (h : stringBody pos rest = .error (n, fault)) : ∃ m, n = pos + m ∧ IsBoundary rest m := by
  have hslash : ∀ rest, IsBoundary ('\\' :: rest) 1 := isBoundary_width ['\\']
  -- Along the walk over the units: a fault behind one unit lies behind the width of that unit.
  fun_induction stringBody pos rest with
  | case3 pos letter rest hletter f hf ih =>
      cases h
      obtain ⟨m, rfl, hm⟩ := ih hf
      have hwidth : width ['\\', letter] = 2 := by
        rw [width_cons, width_cons, utf8Size_of_isEscapeLetter hletter]
        rfl
      exact ⟨2 + m, by omega, hwidth ▸ hm.append_left ['\\', letter]⟩
  | case4 pos letter rest hletter =>
      cases h
      exact ⟨1, rfl, hslash _⟩
  | case5 pos =>
      cases h
      exact ⟨1, rfl, hslash _⟩
  | case6 pos c rest =>
      cases h
      exact ⟨0, rfl, isBoundary_zero _⟩
  | case8 pos c rest _ _ _ _ f hf ih =>
      cases h
      obtain ⟨m, rfl, hm⟩ := ih hf
      exact ⟨c.utf8Size + m, by omega, hm.append_left [c]⟩
  | case9 pos =>
      cases h
      exact ⟨0, rfl, isBoundary_zero _⟩
  | _ => cases h

theorem string_fault {rest : List Char} {n : Nat} {fault : Fault}
    (h : string rest = .error (n, fault)) : IsBoundary ('"' :: rest) n := by
  unfold string at h
  split at h
  · cases h
  · next f hf =>
      cases h
      obtain ⟨m, rfl, hm⟩ := stringBody_fault hf
      exact hm.append_left ['"']

theorem pair_fault {first second : Char} {rest : List Char} {n : Nat} {fault : Fault}
    (h : pair first second rest = .error (n, fault)) : n = 0 := by
  unfold pair at h
  split at h
  · split at h
    · cases h
    · cases h
      rfl
  · cases h
    rfl

theorem minus_fault {rest : List Char} {n : Nat} {fault : Fault}
    (h : minus rest = .error (n, fault)) : IsBoundary ('-' :: rest) n := by
  cases rest with
  | nil =>
      cases h
      exact isBoundary_zero _
  | cons c tail =>
      by_cases hdigit : c.isDigit
      · rw [minus_digit hdigit] at h
        exact number_fault h
      · rw [minus_other hdigit] at h
        cases h

/-- **Faults of lexemes** show between characters. -/
theorem lexeme_fault {first : Char} {rest : List Char} {n : Nat} {fault : Fault}
    (h : lexeme first rest = .error (n, fault)) : IsBoundary (first :: rest) n := by
  -- All faults of operators show at their first character.
  have hstart : n = 0 → IsBoundary (first :: rest) n := by
    rintro rfl
    exact isBoundary_zero _
  have hbranch := lexeme_branch first
  generalize lexeme first = scan at hbranch h
  cases hbranch with
  | character hfirst => exact hfirst ▸ character_fault h
  | string hfirst => exact hfirst ▸ string_fault h
  | number => exact number_fault h
  | pair => exact hstart (pair_fault h)
  | minus hfirst => exact hfirst ▸ minus_fault h
  | nothing =>
      cases h
      exact hstart rfl
  | name | equals | mark => cases h

/-! ## §3 Texts -/

theorem scanFrom_fault {start : Nat} {cs : List Char} {e : LexError}
    (h : scanFrom start cs = .error e) : ∃ n, e.offset = start + n ∧ IsBoundary cs n := by
  fun_induction scanFrom start cs with
  | case1 => cases h
  | case2 start c rest hblank ih =>
      obtain ⟨n, hoffset, hn⟩ := ih h
      exact ⟨c.utf8Size + n, by omega, hn.append_left [c]⟩
  | case3 start c rest hblank distance fault hscanned =>
      cases h
      exact ⟨distance, rfl, lexeme_fault hscanned⟩
  | case4 => cases h
  | case5 start c rest hblank l hscanned e' he' ih =>
      cases h
      obtain ⟨n, hoffset, hn⟩ := ih he'
      have htext := (lexeme_begins hscanned).text_append_rest
      exact ⟨width l.text + n, by omega, htext ▸ hn.append_left l.text⟩

/-- A fault of a text shows between characters of the text. -/
theorem scan_fault {text : String} {e : LexError} (h : scan text = .error e) :
    IsBoundary text.toList e.offset := by
  obtain ⟨n, hoffset, hn⟩ := scanFrom_fault h
  rwa [hoffset, Nat.zero_add]

/-- A token begins and ends between characters of the text that it stands in. -/
theorem StandsIn.isBoundary {cs : List Char} {t : Token} (h : t.StandsIn 0 cs) :
    IsBoundary cs t.offset ∧ IsBoundary cs t.stop := by
  obtain ⟨before, after, rfl, hoffset, -, -⟩ := h
  rw [Nat.zero_add] at hoffset
  refine ⟨hoffset ▸ isBoundary_width before _, ?_⟩
  rw [stop_eq, hoffset, ← width_append, ← List.append_assoc]
  exact isBoundary_width _ after

/-- So does the last token, and with no tokens the text has its beginning. -/
theorem Tiles.isBoundary_endOf {cs : List Char} {ts : List Token} (h : Tiles 0 cs ts) :
    IsBoundary cs (endOf ts) := by
  cases hlast : ts.getLast? with
  | none =>
      rw [endOf, hlast]
      exact isBoundary_zero cs
  | some t =>
      rw [endOf, hlast]
      exact (h.stands t (List.mem_of_getLast? hlast)).isBoundary.2

end Token

end DynImp
