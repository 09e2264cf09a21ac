import DynImp.Token.Scan

/-!
# The lexical grammar

What a token may look like, said without the scanner.

* **Layer A: spellings.** `Kind.Spells`: the texts that a token of a kind may have.
* **Layer B: ends.** `Kind.EndsBefore`: what may follow such a text, so that it could not
  have been longer.
* **Layer C: lexemes.** A lexeme is scanned exactly if it is spelled by its kind, ends where
  it has to, and is the beginning of the text (`lexeme_eq_ok_iff`).
-/

namespace DynImp.Token

open DynImp.Numeral (startsWithDigit)
open DynImp.Text

/-! ## §1 Spellings -/

/-- **Magnitudes.** A zero, or digits that do not begin with one. -/
def IsMagnitude (cs : List Char) : Prop :=
  cs = ['0'] ∨
    ∃ first others, cs = first :: others ∧ first.isDigit ∧ first ≠ '0' ∧ ∀ d ∈ others, d.isDigit

/-- A magnitude with or without a minus sign. -/
def IsInteger (cs : List Char) : Prop :=
  ∃ sign magnitude, (sign = [] ∨ sign = ['-']) ∧ IsMagnitude magnitude ∧ cs = sign ++ magnitude

/-- An integer, a point and at least one digit. -/
def IsDecimal (cs : List Char) : Prop :=
  ∃ whole fraction, IsInteger whole ∧ fraction ≠ [] ∧ (∀ d ∈ fraction, d.isDigit) ∧
    cs = whole ++ '.' :: fraction

/-- **Units.** What stands for one character between two copies of `quote`: a character other than
the quote, the backslash and the line breaks, or a backslash and an escape letter. -/
inductive IsUnit (quote : Char) : List Char → Prop where
  | plain {c : Char} : c ≠ quote → c ≠ '\\' → c ≠ '\n' → c ≠ '\r' → IsUnit quote [c]
  | escape {letter : Char} : isEscapeLetter letter → IsUnit quote ['\\', letter]

/-- The operators of one character, `=` excepted. -/
def marks : List Char := ['+', '-', '*', '/', '^', '(', ')', ';', ':', ',', '[', ']', '<', '>']

/-- **Operators.** -/
def operators : List (List Char) :=
  marks.map (fun c => [c]) ++ [['='], ['=', '='], ['!', '='], ['&', '&'], ['|', '|']]

/-- **Spellings.** The texts that a token of a kind may have. -/
def Kind.Spells : Kind → List Char → Prop
  | .identifier, cs =>
    ∃ first others, cs = first :: others ∧ isNameStart first ∧ ∀ c ∈ others, isNamePart c
  | .integer, cs => IsInteger cs
  | .decimal, cs => IsDecimal cs
  | .character, cs => ∃ unit, IsUnit '\'' unit ∧ cs = '\'' :: (unit ++ ['\''])
  | .string, cs =>
    ∃ units : List (List Char), (∀ u ∈ units, IsUnit '"' u) ∧ cs = '"' :: (units.flatten ++ ['"'])
  | .operator, cs => cs ∈ operators

/-! ## §2 Ends -/

/-- Whether `rest` is over or goes on with a character that is not in the class. -/
def StopsAt (inClass : Char → Bool) (rest : List Char) : Prop :=
  ∀ c ∈ rest.head?, inClass c = false

/-- **Ends.** What has to hold of the `rest` after a token: a name is not followed by more of it, an
integer neither by a digit nor by a point, a decimal not by a digit, and `=` not by another `=`.
A `-` is followed by something, and that is not a digit. -/
def Kind.EndsBefore : Kind → List Char → List Char → Prop
  | .identifier, _, rest => StopsAt isNamePart rest
  | .integer, _, rest => StopsAt (fun c => c.isDigit ∨ c = '.') rest
  | .decimal, _, rest => StopsAt Char.isDigit rest
  | .operator, cs, rest =>
    (cs = ['='] → StopsAt (· = '=') rest) ∧ (cs = ['-'] → rest ≠ [] ∧ StopsAt Char.isDigit rest)
  | .character, _, _ | .string, _, _ => True

/-- **Proper lexemes.** The text is one of the kind, and the rest may follow it. -/
structure Lexeme.Proper (l : Lexeme) : Prop where
  spells : l.kind.Spells l.text
  ends : l.kind.EndsBefore l.text l.rest

theorem stopsAt_nil (inClass : Char → Bool) : StopsAt inClass [] := by
  intro c hc
  cases hc

/-- At the end of a text every token ends but a `-`. -/
theorem Kind.endsBefore_nil {kind : Kind} {cs : List Char}
    (h : ¬ (kind = .operator ∧ cs = ['-'])) : kind.EndsBefore cs [] := by
  cases kind with
  | identifier | integer | decimal => exact stopsAt_nil _
  | character | string => trivial
  | operator => exact ⟨fun _ => stopsAt_nil _, fun heq => absurd ⟨rfl, heq⟩ h⟩

theorem stopsAt_cons {inClass : Char → Bool} {c : Char} {rest : List Char} :
    StopsAt inClass (c :: rest) ↔ inClass c = false := by
  simp [StopsAt]

theorem stopsAt_dropWhile (inClass : Char → Bool) (cs : List Char) :
    StopsAt inClass (cs.dropWhile inClass) := by
  induction cs with
  | nil => exact stopsAt_nil inClass
  | cons c cs ih =>
      rw [List.dropWhile_cons]
      split
      · exact ih
      · next hc => exact stopsAt_cons.mpr (by simpa using hc)

/-- A run of a class that stops is taken from the front as a whole. -/
theorem span_append {inClass : Char → Bool} {run rest : List Char}
    (hrun : ∀ c ∈ run, inClass c) (hrest : StopsAt inClass rest) :
    (run ++ rest).takeWhile inClass = run ∧ (run ++ rest).dropWhile inClass = rest := by
  induction run with
  | nil =>
      cases rest with
      | nil => exact ⟨rfl, rfl⟩
      | cons c rest => simp [stopsAt_cons.mp hrest]
  | cons c run ih =>
      rw [List.forall_mem_cons] at hrun
      obtain ⟨htake, hdrop⟩ := ih hrun.2
      simp [hrun.1, htake, hdrop]

theorem startsWithDigit_eq_false {cs : List Char} (h : StopsAt Char.isDigit cs) :
    startsWithDigit cs = false := by
  cases cs with
  | nil => rfl
  | cons c cs => exact stopsAt_cons.mp h

/-! ## §3 Numbers -/

theorem not_isDigit_point : Char.isDigit '.' = false := by decide

theorem mem_takeWhile_isDigit {cs : List Char} {d : Char} (h : d ∈ cs.takeWhile Char.isDigit) :
    d.isDigit :=
  List.all_eq_true.mp List.all_takeWhile d h

/-- A digit and the digits after it are a magnitude, unless it is a zero with a digit after it. -/
theorem isMagnitude_takeWhile {first : Char} {rest : List Char} (hfirst : first.isDigit)
    (hzero : ¬ (first = '0' ∧ startsWithDigit rest)) :
    IsMagnitude (first :: rest.takeWhile Char.isDigit) := by
  by_cases h : first = '0'
  · left
    have hrest : startsWithDigit rest = false := by simpa [h] using hzero
    cases rest with
    | nil => rw [h]; rfl
    | cons c rest =>
        have hc : c.isDigit = false := hrest
        simp [h, hc]
  · exact .inr ⟨first, _, rfl, hfirst, h, fun d hd => mem_takeWhile_isDigit hd⟩

/-- After a magnitude that is scanned from the front no leading zero is found. -/
theorem IsMagnitude.no_leading_zero {first : Char} {others rest : List Char}
    (h : IsMagnitude (first :: others)) (hrest : StopsAt Char.isDigit rest) :
    ¬ (first = '0' ∧ startsWithDigit (others ++ rest)) := by
  rintro ⟨rfl, hdigit⟩
  obtain h | ⟨_, _, h, -, hne, -⟩ := h
  · obtain rfl : others = [] := (List.cons.inj h).2
    rw [List.nil_append, startsWithDigit_eq_false hrest] at hdigit
    cases hdigit
  · exact hne (List.cons.inj h).1.symm

theorem IsMagnitude.isDigit {first : Char} {others : List Char}
    (h : IsMagnitude (first :: others)) : first.isDigit ∧ ∀ d ∈ others, d.isDigit := by
  obtain h | ⟨_, _, h, hfirst, -, hothers⟩ := h
  · obtain ⟨rfl, rfl⟩ := List.cons.inj h
    exact ⟨by decide, by simp⟩
  · obtain ⟨rfl, rfl⟩ := List.cons.inj h
    exact ⟨hfirst, hothers⟩

theorem IsMagnitude.exists_cons {cs : List Char} (h : IsMagnitude cs) :
    ∃ first others, cs = first :: others := by
  obtain rfl | ⟨first, others, rfl, -⟩ := h
  · exact ⟨_, _, rfl⟩
  · exact ⟨_, _, rfl⟩

theorem number_proper {sign rest : List Char} {first : Char} {l : Lexeme}
    (hsign : sign = [] ∨ sign = ['-']) (hfirst : first.isDigit)
    (h : number sign first rest = .ok l) : l.Proper := by
  unfold number at h
  split at h
  · cases h
  · next hzero =>
      have hinteger : IsInteger (sign ++ first :: rest.takeWhile Char.isDigit) :=
        ⟨sign, _, hsign, isMagnitude_takeWhile hfirst hzero, rfl⟩
      split at h
      · next tail htail =>
          split at h
          · next hdigit =>
              cases h
              refine ⟨⟨_, tail.takeWhile Char.isDigit, hinteger, ?_, ?_, by simp⟩, ?_⟩
              · cases tail with
                | nil => cases hdigit
                | cons c tail =>
                    have hc : c.isDigit = true := hdigit
                    simp [hc]
              · exact fun d hd => mem_takeWhile_isDigit hd
              · exact stopsAt_dropWhile Char.isDigit tail
          · cases h
      · next hpoint =>
          cases h
          refine ⟨by simpa [Kind.Spells] using hinteger, ?_⟩
          -- What is left begins neither with a digit nor, in this branch, with a point.
          intro c hc
          have hdigit := stopsAt_dropWhile Char.isDigit rest c hc
          cases htail : rest.dropWhile Char.isDigit with
          | nil => rw [htail] at hc; cases hc
          | cons d tail =>
              rw [htail] at hc
              obtain rfl : d = c := by simpa using hc
              have : d ≠ '.' := fun heq => hpoint tail (heq ▸ htail)
              simp [hdigit, this]

theorem number_integer {sign others rest : List Char} {first : Char}
    (hmagnitude : IsMagnitude (first :: others))
    (hrest : StopsAt (fun c => c.isDigit ∨ c = '.') rest) :
    number sign first (others ++ rest) = .ok ⟨.integer, sign ++ first :: others, rest⟩ := by
  have hstop : StopsAt Char.isDigit rest := by
    intro c hc
    have := hrest c hc
    simp at this
    exact this.1
  obtain ⟨htake, hdrop⟩ := span_append hmagnitude.isDigit.2 hstop
  unfold number
  rw [if_neg (hmagnitude.no_leading_zero hstop), htake, hdrop]
  cases rest with
  | nil => simp
  | cons c rest =>
      have hpoint : c ≠ '.' := by
        have := stopsAt_cons.mp hrest
        simp at this
        exact this.2
      split
      · next heq => exact absurd (List.cons.inj heq).1 hpoint
      · simp

theorem number_decimal {sign others fraction rest : List Char} {first : Char}
    (hmagnitude : IsMagnitude (first :: others)) (hfraction : fraction ≠ [])
    (hdigits : ∀ d ∈ fraction, d.isDigit) (hrest : StopsAt Char.isDigit rest) :
    number sign first (others ++ '.' :: (fraction ++ rest)) =
      .ok ⟨.decimal, sign ++ first :: others ++ '.' :: fraction, rest⟩ := by
  have hstop : StopsAt Char.isDigit ('.' :: (fraction ++ rest)) :=
    stopsAt_cons.mpr not_isDigit_point
  obtain ⟨htake, hdrop⟩ := span_append hmagnitude.isDigit.2 hstop
  obtain ⟨htake', hdrop'⟩ := span_append hdigits hrest
  have hstart : startsWithDigit (fraction ++ rest) = true := by
    cases fraction with
    | nil => exact absurd rfl hfraction
    | cons d fraction => exact hdigits d List.mem_cons_self
  unfold number
  rw [if_neg (hmagnitude.no_leading_zero hstop), htake, hdrop]
  simp [hstart, htake', hdrop']

/-! ## §4 Quoted literals -/

/-- A character that is neither a backslash at the end nor one with something after it is no
backslash: the last branches of the scanners of quoted literals. -/
theorem ne_backslash {c : Char} {rest : List Char} (hlone : c = '\\' → rest = [] → False)
    (hescape : ∀ letter tail, c = '\\' → rest = letter :: tail → False) : c ≠ '\\' := by
  intro hc
  cases rest with
  | nil => exact hlone hc rfl
  | cons letter tail => exact hescape letter tail hc rfl

theorem closeCharacter_proper {unit rest : List Char} {l : Lexeme} (hunit : IsUnit '\'' unit)
    (h : closeCharacter ('\'' :: unit) rest = .ok l) : l.Proper := by
  unfold closeCharacter at h
  split at h
  · cases h
    exact ⟨⟨unit, hunit, rfl⟩, trivial⟩
  · cases h

theorem character_proper {rest : List Char} {l : Lexeme} (h : character rest = .ok l) :
    l.Proper := by
  unfold character at h
  split at h
  · cases h
  · split at h
    · next hletter => exact closeCharacter_proper (.escape hletter) h
    · cases h
  · cases h
  · next c tail hquote hescape hlone =>
      split at h
      · cases h
      · next hend =>
          have hslash := ne_backslash hlone hescape
          have hbreak : c ≠ '\n' ∧ c ≠ '\r' := by simpa [atLineEnd] using hend
          have hplain : c ≠ '\'' := fun heq => hquote heq
          exact closeCharacter_proper (.plain hplain hslash hbreak.1 hbreak.2) h
  · cases h

theorem character_unit {unit rest : List Char} (h : IsUnit '\'' unit) :
    character (unit ++ '\'' :: rest) = .ok ⟨.character, '\'' :: (unit ++ ['\'']), rest⟩ := by
  cases h with
  | @plain c hquote hslash hline hreturn =>
      have hend : atLineEnd (c :: '\'' :: rest) = false := by simp [atLineEnd, hline, hreturn]
      show character (c :: '\'' :: rest) = _
      rw [character]
      · simp [hend, closeCharacter]
      all_goals simp_all
  | @escape letter hletter => simp [character, hletter, closeCharacter]

theorem stringBody_units {pos : Nat} {rest body tail : List Char}
    (h : stringBody pos rest = .ok (body, tail)) :
    ∃ units : List (List Char), (∀ u ∈ units, IsUnit '"' u) ∧ body = units.flatten ++ ['"'] := by
  fun_induction stringBody pos rest generalizing body tail with
  | case1 =>
      cases h
      exact ⟨[], by simp, rfl⟩
  | case2 pos letter r hletter b t hb ih =>
      cases h
      obtain ⟨units, hunits, rfl⟩ := ih hb
      exact ⟨_ :: units, List.forall_mem_cons.mpr ⟨.escape hletter, hunits⟩, rfl⟩
  | case7 pos c r hquote hescape hlone hbreak b t hb ih =>
      cases h
      obtain ⟨units, hunits, rfl⟩ := ih hb
      have hslash := ne_backslash hlone hescape
      have hplain : c ≠ '"' := fun heq => hquote heq
      obtain ⟨hline, hreturn⟩ := not_or.mp hbreak
      have hunit : IsUnit '"' [c] := .plain hplain hslash hline hreturn
      exact ⟨[c] :: units, List.forall_mem_cons.mpr ⟨hunit, hunits⟩, rfl⟩
  | _ => cases h

theorem stringBody_flatten {units : List (List Char)} (hunits : ∀ u ∈ units, IsUnit '"' u)
    (pos : Nat) (rest : List Char) :
    stringBody pos (units.flatten ++ '"' :: rest) = .ok (units.flatten ++ ['"'], rest) := by
  induction units generalizing pos with
  | nil => simp [stringBody]
  | cons u units ih =>
      rw [List.forall_mem_cons] at hunits
      cases hunits.1 with
      | @plain c hquote hslash hline hreturn =>
          have hrest := ih hunits.2 (pos + c.utf8Size)
          simp only [List.flatten_cons, List.cons_append, List.nil_append]
          unfold stringBody
          split <;> simp_all
      | @escape letter hletter =>
          have hrest := ih hunits.2 (pos + 2)
          simp [stringBody, hletter, hrest]

theorem string_proper {rest : List Char} {l : Lexeme} (h : string rest = .ok l) : l.Proper := by
  unfold string at h
  split at h
  · next body tail hbody =>
      cases h
      obtain ⟨units, hunits, rfl⟩ := stringBody_units hbody
      exact ⟨⟨units, hunits, rfl⟩, trivial⟩
  · cases h

/-! ## §5 Lexemes -/

theorem isMark_iff_mem {c : Char} : isMark c ↔ c ∈ marks := by
  simp [isMark, marks]

/-- No mark begins like a literal, a name or another operator. -/
theorem marks_start {c : Char} (h : c ∈ marks) :
    c ≠ '\'' ∧ c ≠ '"' ∧ c.isDigit = false ∧ isNameStart c = false ∧ c ≠ '&' ∧ c ≠ '|' ∧ c ≠ '!' ∧
      c ≠ '=' := by
  -- As a Boolean: a quantifier over characters may be decided by trying all characters there are.
  have hall : marks.all fun c => c ≠ '\'' ∧ c ≠ '"' ∧ c.isDigit = false ∧ isNameStart c = false ∧
      c ≠ '&' ∧ c ≠ '|' ∧ c ≠ '!' ∧ c ≠ '=' := by decide
  exact of_decide_eq_true (List.all_eq_true.mp hall c h)

theorem pair_proper {first second : Char} {rest : List Char} {l : Lexeme}
    (hmark : [first, second] ∈ operators) (h : pair first second rest = .ok l) : l.Proper := by
  unfold pair at h
  split at h
  · split at h
    · cases h
      exact ⟨hmark, by simp, by simp⟩
    · cases h
  · cases h

theorem operator_proper {cs rest : List Char} (h : cs ∈ operators)
    (hequals : cs = ['='] → StopsAt (· = '=') rest)
    (hminus : cs = ['-'] → rest ≠ [] ∧ StopsAt Char.isDigit rest) :
    Lexeme.Proper ⟨.operator, cs, rest⟩ :=
  ⟨h, hequals, hminus⟩

theorem equals_proper (rest : List Char) : (equals rest).Proper := by
  unfold equals
  split
  · exact operator_proper (by decide) (by simp) (by simp)
  · next hequals =>
      refine operator_proper (by decide) (fun _ => ?_) (by simp)
      cases rest with
      | nil => exact stopsAt_nil _
      | cons c rest =>
          have : c ≠ '=' := fun heq => hequals rest (by rw [heq])
          exact stopsAt_cons.mpr (by simpa using this)

/-- Letters come after the digits and the quotes in the order of code points. -/
theorem isAlphabetic_of_lt {c : Char} (h : c.toNat < 0x41) : isAlphabetic c = false := by
  unfold isAlphabetic RangeTable.contains alphabeticTable RangeTable.covers
  exact if_pos h

theorem nameStart_start {c : Char} (h : isNameStart c) :
    c ≠ '\'' ∧ c ≠ '"' ∧ c.isDigit = false := by
  refine ⟨?_, ?_, ?_⟩
  · rintro rfl
    exact absurd h (by decide)
  · rintro rfl
    exact absurd h (by decide)
  · refine Bool.eq_false_iff.mpr fun hdigit => ?_
    have hrange : 48 ≤ c.toNat ∧ c.toNat ≤ 57 := by
      simpa [Char.isDigit, Char.le_def, UInt32.le_iff_toNat_le] using hdigit
    have hletter := isAlphabetic_of_lt (c := c) (by omega)
    have hat : c ≠ '@' := by
      rintro rfl
      exact absurd hrange.2 (by decide)
    simp [isNameStart, hletter, hat] at h

theorem minus_proper {rest : List Char} {l : Lexeme} (h : minus rest = .ok l) : l.Proper := by
  cases rest with
  | nil => cases h
  | cons c tail =>
      by_cases hdigit : c.isDigit
      · rw [minus_digit hdigit] at h
        exact number_proper (.inr rfl) hdigit h
      · rw [minus_other hdigit] at h
        cases h
        refine operator_proper (by decide) (by simp) fun _ => ⟨List.cons_ne_nil _ _, ?_⟩
        exact stopsAt_cons.mpr (by simpa using hdigit)

/-- **Scanned lexemes are proper.** -/
theorem lexeme_proper {first : Char} {rest : List Char} {l : Lexeme}
    (h : lexeme first rest = .ok l) : l.Proper := by
  have hpairs : ∀ p ∈ pairs, [p.1, p.2] ∈ operators := by decide
  have hbranch := lexeme_branch first
  generalize lexeme first = scan at hbranch h
  cases hbranch with
  | character => exact character_proper h
  | string => exact string_proper h
  | number hdigit => exact number_proper (.inl rfl) hdigit h
  | name hstart =>
      cases h
      refine ⟨⟨first, _, rfl, hstart, ?_⟩, stopsAt_dropWhile isNamePart rest⟩
      exact List.all_eq_true.mp List.all_takeWhile
  | pair hmem => exact pair_proper (hpairs _ hmem) h
  | equals =>
      cases h
      exact equals_proper rest
  | minus => exact minus_proper h
  | mark hmark hequals hminus =>
      cases h
      -- The marks other than these two are operators whatever follows.
      have hmem : [first] ∈ operators :=
        List.mem_append_left _ (List.mem_map.mpr ⟨first, isMark_iff_mem.mp hmark, rfl⟩)
      refine operator_proper hmem ?_ ?_
      · intro heq
        exact absurd (List.cons.inj heq).1 hequals
      · intro heq
        exact absurd (List.cons.inj heq).1 hminus
  | nothing => cases h

theorem lexeme_minus {rest : List Char} (hne : rest ≠ []) (hstop : StopsAt Char.isDigit rest) :
    lexeme '-' rest = .ok ⟨.operator, ['-'], rest⟩ := by
  have hstart : isNameStart '-' = false := by decide
  cases rest with
  | nil => exact absurd rfl hne
  | cons d rest =>
      have hd : d.isDigit = false := stopsAt_cons.mp hstop
      simp [lexeme, hstart, hd]

theorem lexeme_equals {rest : List Char} (hstop : StopsAt (· = '=') rest) :
    lexeme '=' rest = .ok ⟨.operator, ['='], rest⟩ := by
  have hequals : equals rest = ⟨.operator, ['='], rest⟩ := by
    cases rest with
    | nil => rfl
    | cons d rest =>
        have hd : d ≠ '=' := by simpa using stopsAt_cons.mp hstop
        simp [equals, hd]
  rw [← hequals]
  rfl

theorem lexeme_mark {c : Char} {rest : List Char} (h : c ∈ marks) (hminus : c ≠ '-') :
    lexeme c rest = .ok ⟨.operator, [c], rest⟩ := by
  obtain ⟨h₁, h₂, h₃, h₄, h₅, h₆, h₇, h₈⟩ := marks_start h
  simp [lexeme, h₁, h₂, h₃, h₄, h₅, h₆, h₇, h₈, hminus, isMark_iff_mem.mpr h]

theorem lexeme_operator {first : Char} {others rest : List Char}
    (h : first :: others ∈ operators) (hends : Kind.operator.EndsBefore (first :: others) rest) :
    lexeme first (others ++ rest) = .ok ⟨.operator, first :: others, rest⟩ := by
  obtain h | h := List.mem_append.mp h
  · obtain ⟨c, hc, heq⟩ := List.mem_map.mp h
    obtain ⟨rfl, rfl⟩ := List.cons.inj heq
    by_cases hminus : c = '-'
    · subst hminus
      obtain ⟨hne, hstop⟩ := hends.2 rfl
      exact lexeme_minus hne hstop
    · exact lexeme_mark hc hminus
  · -- The five operators that are left are written out.
    simp only [List.mem_cons, List.cons.injEq, List.not_mem_nil, or_false] at h
    obtain ⟨rfl, rfl⟩ | ⟨rfl, rfl⟩ | ⟨rfl, rfl⟩ | ⟨rfl, rfl⟩ | ⟨rfl, rfl⟩ := h
    · exact lexeme_equals (hends.1 rfl)
    all_goals rfl

theorem lexeme_name {first : Char} {others rest : List Char} (hfirst : isNameStart first)
    (hothers : ∀ c ∈ others, isNamePart c) (hstop : StopsAt isNamePart rest) :
    lexeme first (others ++ rest) = .ok ⟨.identifier, first :: others, rest⟩ := by
  obtain ⟨h₁, h₂, h₃⟩ := nameStart_start hfirst
  obtain ⟨htake, hdrop⟩ := span_append hothers hstop
  simp [lexeme, h₁, h₂, h₃, hfirst, name, htake, hdrop]

/-- A digit, or a minus sign and a digit, is the beginning of a number. -/
theorem lexeme_number {sign rest : List Char} {digit first : Char} {others : List Char}
    (hsign : sign = [] ∨ sign = ['-']) (hdigit : digit.isDigit)
    (heq : sign ++ digit :: rest = first :: others) :
    lexeme first others = number sign digit rest := by
  obtain rfl | rfl := hsign
  · obtain ⟨rfl, rfl⟩ := List.cons.inj heq
    have hquote : digit ≠ '\'' := by
      rintro rfl
      exact absurd hdigit (by decide)
    have hquotes : digit ≠ '"' := by
      rintro rfl
      exact absurd hdigit (by decide)
    simp [lexeme, hquote, hquotes, hdigit]
  · obtain ⟨rfl, rfl⟩ := List.cons.inj heq
    have hstart : isNameStart '-' = false := by decide
    simp [lexeme, hstart, hdigit]

/-- **Proper lexemes are scanned.** -/
theorem lexeme_of_proper {first : Char} {rest : List Char} {l : Lexeme} (h : l.Proper)
    (hl : l.text ++ l.rest = first :: rest) : lexeme first rest = .ok l := by
  obtain ⟨kind, text, after⟩ := l
  obtain ⟨hspells, hends⟩ := h
  cases kind with
  | identifier =>
      obtain ⟨c, others, rfl, hfirst, hothers⟩ := hspells
      obtain ⟨rfl, rfl⟩ := List.cons.inj hl
      exact lexeme_name hfirst hothers hends
  | integer =>
      obtain ⟨sign, magnitude, hsign, hmagnitude, rfl⟩ := hspells
      obtain ⟨digit, others, rfl⟩ := hmagnitude.exists_cons
      simp only [List.append_assoc, List.cons_append] at hl
      rw [lexeme_number hsign hmagnitude.isDigit.1 hl]
      exact number_integer hmagnitude hends
  | decimal =>
      obtain ⟨whole, fraction, ⟨sign, magnitude, hsign, hmagnitude, rfl⟩, hne, hdigits, rfl⟩ :=
        hspells
      obtain ⟨digit, others, rfl⟩ := hmagnitude.exists_cons
      simp only [List.append_assoc, List.cons_append] at hl
      rw [lexeme_number hsign hmagnitude.isDigit.1 hl]
      exact number_decimal hmagnitude hne hdigits hends
  | character =>
      obtain ⟨unit, hunit, rfl⟩ := hspells
      simp only [List.append_assoc, List.cons_append, List.nil_append] at hl
      obtain ⟨rfl, rfl⟩ := List.cons.inj hl
      exact character_unit hunit
  | string =>
      obtain ⟨units, hunits, rfl⟩ := hspells
      simp only [List.append_assoc, List.cons_append, List.nil_append] at hl
      obtain ⟨rfl, rfl⟩ := List.cons.inj hl
      have hbody := stringBody_flatten hunits 1 after
      show string _ = _
      simp only [string, hbody]
  | operator =>
      have hne : [] ∉ operators := by decide
      cases text with
      | nil => exact absurd hspells hne
      | cons c others =>
          obtain ⟨rfl, rfl⟩ := List.cons.inj hl
          exact lexeme_operator hspells hends

/-- **Lexemes.** What is scanned at the front of a text is the one proper lexeme there. -/
theorem lexeme_eq_ok_iff {first : Char} {rest : List Char} {l : Lexeme} :
    lexeme first rest = .ok l ↔ l.Proper ∧ l.text ++ l.rest = first :: rest := by
  constructor
  · exact fun h => ⟨lexeme_proper h, (lexeme_begins h).text_append_rest⟩
  · exact fun h => lexeme_of_proper h.1 h.2

end DynImp.Token
