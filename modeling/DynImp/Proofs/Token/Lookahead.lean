import DynImp.Proofs.Token.Boundaries
import Mathlib.Data.List.Forall2

/-!
# How far the scanner looks ahead

Where a lexeme ends is decided by the character behind it, so what stands further on has no
part in it.  White space ends every lexeme, and behind it scanning starts afresh.

* **Layer A: ends.** The end of a token depends on the next character alone, and white space
  ends every token.
* **Layer B: steps.** One equation for each thing that may stand at the front of a text.
* **Layer C: texts side by side.** A text, white space and another text have the tokens, or the
  fault, of both texts.
-/

namespace DynImp

namespace Text

/-! ## §1 White space -/

/-- No range of white space meets one of numerals. -/
theorem blankTable_apart_numerals : ∀ blank ∈ blankTable, ∀ numerals ∈ numericTable,
    blank.2 < numerals.1 ∨ numerals.2 < blank.1 := by
  decide +kernel

theorem isNumeric_of_isBlank {c : Char} (h : isBlank c) : isNumeric c = false :=
  RangeTable.contains_eq_false blankTable_apart_numerals h

theorem ne_of_isBlank {c d : Char} (h : isBlank c) (hd : isBlank d = false) : c ≠ d := by
  rintro rfl
  rw [h] at hd
  cases hd

end Text

namespace Token

open DynImp.Numeral (startsWithDigit)
open DynImp.Text

theorem isDigit_of_isBlank {c : Char} (h : isBlank c) : c.isDigit = false := by
  refine Bool.eq_false_iff.mpr fun hdigit => ?_
  rw [isBlank_of_isDigit hdigit] at h
  cases h

theorem isNamePart_of_isBlank {c : Char} (h : isBlank c) : isNamePart c = false := by
  have hunderscore : c ≠ '_' := ne_of_isBlank h (by decide)
  have hdash : c ≠ '-' := ne_of_isBlank h (by decide)
  simp [isNamePart, isAlphabetic_of_isBlank h, isNumeric_of_isBlank h, hunderscore, hdash]

/-! ## §2 Ends -/

variable {kind : Kind} {text rest : List Char}

/-- **White space ends every token**, a single `-` included. -/
theorem Kind.endsBefore_blank {w : Char} (hw : isBlank w) (kind : Kind) (text rest : List Char) :
    kind.EndsBefore text (w :: rest) := by
  have hdigit := isDigit_of_isBlank hw
  cases kind with
  | identifier => exact stopsAt_cons.mpr (isNamePart_of_isBlank hw)
  | integer =>
      have hpoint : w ≠ '.' := ne_of_isBlank hw (by decide)
      exact stopsAt_cons.mpr (by simp [hdigit, hpoint])
  | decimal => exact stopsAt_cons.mpr hdigit
  | character | string => trivial
  | operator =>
      -- A minus sign needs something behind it, and white space is enough.
      have hequals : w ≠ '=' := ne_of_isBlank hw (by decide)
      exact ⟨fun _ => stopsAt_cons.mpr (by simpa using hequals),
        fun _ => ⟨List.cons_ne_nil _ _, stopsAt_cons.mpr hdigit⟩⟩

/-- Where a token ends is a matter of the character behind it. -/
theorem Kind.EndsBefore.of_head {rest' : List Char} (h : kind.EndsBefore text rest)
    (hhead : rest'.head? = rest.head?) : kind.EndsBefore text rest' := by
  have hstops : ∀ inClass, StopsAt inClass rest → StopsAt inClass rest' := by
    intro inClass hrest
    rwa [StopsAt, hhead]
  cases kind with
  | identifier | integer | decimal => exact hstops _ h
  | character | string => trivial
  | operator =>
      refine ⟨fun hequals => hstops _ (h.1 hequals), fun hminus => ⟨?_, hstops _ (h.2 hminus).2⟩⟩
      rintro rfl
      exact (h.2 hminus).1 (List.head?_eq_none_iff.mp hhead.symm)

/-- A token that ends before `rest` ends there if white space and anything else is appended. -/
theorem Kind.EndsBefore.append_blank {w : Char} (h : kind.EndsBefore text rest) (hw : isBlank w)
    (more : List Char) : kind.EndsBefore text (rest ++ w :: more) := by
  cases rest with
  | nil => exact endsBefore_blank hw kind text more
  | cons c rest => exact h.of_head rfl

/-- A lexeme is scanned in front of anything that it ends before. -/
theorem lexeme_of_endsBefore {first : Char} {rest rest' after : List Char} {l : Lexeme}
    (h : lexeme first rest = .ok l) (hends : l.kind.EndsBefore l.text after)
    (hrest : first :: rest' = l.text ++ after) :
    lexeme first rest' = .ok ⟨l.kind, l.text, after⟩ :=
  lexeme_of_proper ⟨(lexeme_proper h).spells, hends⟩ hrest.symm

/-! ## §3 One step of scanning -/

section Steps

variable {start : Nat} {c : Char} {cs : List Char}

theorem scanFrom_of_blank (hc : isBlank c) :
    scanFrom start (c :: cs) = scanFrom (start + c.utf8Size) cs := by
  rw [scanFrom, if_pos hc]

theorem scanFrom_of_fault {distance : Nat} {fault : Fault} (hc : ¬ isBlank c)
    (h : lexeme c cs = .error (distance, fault)) :
    scanFrom start (c :: cs) = .error ⟨start + distance, fault⟩ := by
  rw [scanFrom, if_neg hc]
  split
  · next heq => cases h.symm.trans heq; rfl
  · next heq => cases h.symm.trans heq

theorem scanFrom_of_lexeme {l : Lexeme} (hc : ¬ isBlank c) (h : lexeme c cs = .ok l) :
    scanFrom start (c :: cs) =
      (scanFrom (start + width l.text) l.rest).map (l.token start :: ·) := by
  rw [scanFrom, if_neg hc]
  split
  · next heq => cases h.symm.trans heq
  · next heq =>
      cases h.symm.trans heq
      cases scanFrom (start + width l.text) l.rest <;> rfl

end Steps

/-! ## §4 Texts side by side -/

/-- A token that stands `n` bytes further on. -/
def moved (n : Nat) (t : Token) : Token := { t with offset := n + t.offset }

/-- A fault that shows `n` bytes further on. -/
def LexError.moved (n : Nat) (e : LexError) : LexError := { e with offset := n + e.offset }

/-- What a text gives behind `n` bytes in which the tokens `ts` stand: its own tokens after these,
or its fault. -/
def behind (n : Nat) (ts : List Token) :
    Except LexError (List Token) → Except LexError (List Token)
  | .ok us => .ok (ts ++ us.map (moved n))
  | .error e => .error (e.moved n)

/-- Where a text begins is added to all places. -/
theorem scanFrom_eq_behind (n start : Nat) (cs : List Char) :
    scanFrom (n + start) cs = behind n [] (scanFrom start cs) := by
  fun_induction scanFrom start cs with
  | case1 start => rw [scanFrom]; rfl
  | case2 start c rest hblank ih => rw [scanFrom_of_blank hblank, Nat.add_assoc, ih]
  | case3 start c rest hblank distance fault hscanned =>
      rw [scanFrom_of_fault hblank hscanned, Nat.add_assoc]
      rfl
  | case4 start c rest hblank l hscanned us hus ih =>
      rw [scanFrom_of_lexeme hblank hscanned, Nat.add_assoc, ih, hus]
      rfl
  | case5 start c rest hblank l hscanned e he ih =>
      rw [scanFrom_of_lexeme hblank hscanned, Nat.add_assoc, ih, he]
      rfl

/-- No token of a text is affected by what comes after white space behind the text. -/
theorem scanFrom_append_blank {start : Nat} {cs : List Char} {ts : List Token} {w : Char}
    (h : scanFrom start cs = .ok ts) (hw : isBlank w) (ds : List Char) :
    scanFrom start (cs ++ w :: ds) =
      (scanFrom (start + width cs + w.utf8Size) ds).map (ts ++ ·) := by
  fun_induction scanFrom start cs generalizing ts with
  | case1 start =>
      cases h
      rw [List.nil_append, scanFrom_of_blank hw, width_nil, Nat.add_zero]
      cases scanFrom (start + w.utf8Size) ds <;> rfl
  | case2 start c rest hblank ih =>
      rw [List.cons_append, scanFrom_of_blank hblank, ih h, width_cons, ← Nat.add_assoc]
  | case3 => cases h
  | case4 start c rest hblank l hscanned us hus ih =>
      cases h
      have htext := (lexeme_begins hscanned).text_append_rest
      -- The lexeme ended somewhere in the text or at its end, and ends there still.
      have hends := (lexeme_proper hscanned).ends.append_blank hw ds
      have hrest : c :: (rest ++ w :: ds) = l.text ++ (l.rest ++ w :: ds) := by
        rw [← List.append_assoc, htext, List.cons_append]
      have hlexeme := lexeme_of_endsBefore hscanned hends hrest
      rw [List.cons_append, scanFrom_of_lexeme hblank hlexeme, ih hus, ← htext, width_append,
        Nat.add_assoc start]
      cases scanFrom (start + (width l.text + width l.rest) + w.utf8Size) ds <;> rfl
  | case5 => cases h

/-- Spellings with a space after each are tiled by tokens of them, whatever `R` says of these. -/
theorem exists_tiles_spaced {α : Type} {kind : α → Kind} {spelling : α → List Char}
    {R : Token → α → Prop} {as : List α} (hspells : ∀ a ∈ as, (kind a).Spells (spelling a))
    (hR : ∀ a ∈ as, ∀ start, R ⟨kind a, String.ofList (spelling a), start⟩ a) (start : Nat) :
    ∃ ts, Tiles start (as.flatMap fun a => spelling a ++ [' ']) ts ∧ List.Forall₂ R ts as := by
  induction as generalizing start with
  | nil => exact ⟨[], (tiles_nil start []).mpr rfl, .nil⟩
  | cons a as ih =>
      rw [List.forall_mem_cons] at hspells hR
      have hspace : isBlank ' ' = true := by decide
      let l : Lexeme := ⟨kind a, spelling a, ' ' :: as.flatMap fun a => spelling a ++ [' ']⟩
      have hproper : l.Proper := ⟨hspells.1, Kind.endsBefore_blank hspace _ _ _⟩
      obtain ⟨ts, htiles, hts⟩ := ih hspells.2 hR.2 (start + width (spelling a) + ' '.utf8Size)
      refine ⟨l.token start :: ts, ?_, .cons (hR.1 start) hts⟩
      have htext : (a :: as).flatMap (fun a => spelling a ++ [' ']) = l.text ++ l.rest := by
        rw [List.flatMap_cons, List.append_assoc]
        rfl
      rw [htext]
      exact hproper.tiles ((tiles_blank hspace).mpr htiles)

/-- The texts of tokens with a space after each. -/
def spaced (ts : List Token) : String := String.ofList (ts.flatMap fun t => t.text.toList ++ [' '])

/-- **Scanning is compositional.** A text, white space and a second text are scanned as both texts
are: the tokens of the first one, and the tokens or the fault of the second one with the bytes in
front of it added to their places.  The tokens of a text, written with a space after each, are
scanned as tokens of the same kinds and texts. -/
theorem scan_compositional {text : String} {ts : List Token} (h : scan text = .ok ts) :
    (∀ w, isBlank w → ∀ more, scan (text ++ String.singleton w ++ more) =
      behind (text.utf8ByteSize + w.utf8Size) ts (scan more)) ∧
    ∃ us, scan (spaced ts) = .ok us ∧
      us.map (fun u => (u.kind, u.text)) = ts.map fun t => (t.kind, t.text) := by
  constructor
  · intro w hw more
    have hlist : (text ++ String.singleton w ++ more).toList =
        text.toList ++ w :: more.toList := by
      simp
    have hwidth : width text.toList = text.utf8ByteSize := by
      rw [← utf8ByteSize_ofList, String.ofList_toList]
    rw [scan, hlist, scanFrom_append_blank h hw, Nat.zero_add, hwidth, ← Nat.add_zero (_ + _),
      scanFrom_eq_behind, scan]
    cases scanFrom 0 more.toList <;> rfl
  · -- What a token is spelled like does not depend on where it stands.
    have hspells : ∀ t ∈ ts, t.kind.Spells t.text.toList := by
      intro t ht
      obtain ⟨_, _, -, -, hspells, -⟩ := (scanFrom_eq_ok_iff.mp h).stands t ht
      exact hspells
    obtain ⟨us, htiles, hus⟩ := exists_tiles_spaced hspells
      (R := fun u t => (u.kind, u.text) = (t.kind, t.text))
      (fun t _ _ => by rw [String.ofList_toList]) 0
    refine ⟨us, ?_, ?_⟩
    · rw [scan, spaced, String.toList_ofList]
      exact scanFrom_eq_ok_iff.mpr htiles
    · rw [← List.forall₂_eq_eq_eq, List.forall₂_map_left_iff, List.forall₂_map_right_iff]
      exact hus

/-- A minus sign that would be left hanging alone is a token before white space. -/
theorem subtraction_compositional :
    scan "x -" = .error ⟨2, .danglingMinus⟩ ∧
      (∀ more, scan ("x - " ++ "\t" ++ more) =
        behind 5 [⟨.identifier, "x", 0⟩, ⟨.operator, "-", 2⟩] (scan more)) ∧
      ∃ us, scan (spaced [⟨.identifier, "x", 0⟩, ⟨.operator, "-", 2⟩]) = .ok us ∧
        us.map (fun u => (u.kind, u.text)) = [(.identifier, "x"), (.operator, "-")] := by
  have hscan : scan "x - " = .ok [⟨.identifier, "x", 0⟩, ⟨.operator, "-", 2⟩] := by decide +kernel
  obtain ⟨happend, hspaced⟩ := scan_compositional hscan
  exact ⟨by decide +kernel, happend '\t' (by decide), hspaced⟩

end Token

end DynImp
