import DynImp.Proofs.Token.Lookahead

/-!
# White space around a text

White space in front of a text moves its tokens, and white space behind it changes nothing
as long as the text is scanned at all.  There is one text that needs it: a text with a `-`
at its end, which is a token before white space and a fault at the end.

* **Layer A: last characters.** No token ends in white space, so none reaches into the margin.
* **Layer B: margins** in front and behind.
-/

namespace DynImp

open DynImp.Text

namespace Token

/-! ## §1 Last characters -/

/-- The text ends in something other than white space. -/
def EndsVisibly (cs : List Char) : Prop :=
  ∃ before last, cs = before ++ [last] ∧ isBlank last = false

theorem EndsVisibly.append_left {cs : List Char} (h : EndsVisibly cs) (front : List Char) :
    EndsVisibly (front ++ cs) := by
  obtain ⟨before, last, rfl, hlast⟩ := h
  exact ⟨front ++ before, last, (List.append_assoc ..).symm, hlast⟩

theorem endsVisibly_of_forall {cs : List Char} (hne : cs ≠ []) (h : ∀ c ∈ cs, isBlank c = false) :
    EndsVisibly cs :=
  ⟨cs.dropLast, cs.getLast hne, (List.dropLast_append_getLast hne).symm,
    h _ (List.getLast_mem hne)⟩

theorem endsVisibly_append_singleton (before : List Char) {last : Char} (h : isBlank last = false) :
    EndsVisibly (before ++ [last]) :=
  ⟨before, last, rfl, h⟩

theorem isBlank_of_isNamePart {c : Char} (h : isNamePart c) : isBlank c = false := by
  refine Bool.eq_false_iff.mpr fun hblank => ?_
  rw [isNamePart_of_isBlank hblank] at h
  cases h

theorem IsInteger.endsVisibly {cs : List Char} (h : IsInteger cs) : EndsVisibly cs := by
  obtain ⟨sign, magnitude, -, hmagnitude, rfl⟩ := h
  obtain ⟨first, others, rfl⟩ := hmagnitude.exists_cons
  refine (endsVisibly_of_forall (List.cons_ne_nil _ _) ?_).append_left sign
  rw [List.forall_mem_cons]
  exact ⟨isBlank_of_isDigit hmagnitude.isDigit.1,
    fun d hd => isBlank_of_isDigit (hmagnitude.isDigit.2 d hd)⟩

/-- **No token ends in white space.** -/
theorem Kind.Spells.endsVisibly {kind : Kind} {cs : List Char} (h : kind.Spells cs) :
    EndsVisibly cs := by
  cases kind with
  | identifier =>
      obtain ⟨first, others, rfl, hfirst, hothers⟩ := h
      refine endsVisibly_of_forall (List.cons_ne_nil _ _) ?_
      rw [List.forall_mem_cons]
      exact ⟨isBlank_of_isNameStart hfirst, fun c hc => isBlank_of_isNamePart (hothers c hc)⟩
  | integer => exact IsInteger.endsVisibly h
  | decimal =>
      obtain ⟨whole, fraction, -, hne, hdigits, rfl⟩ := h
      rw [← List.singleton_append, ← List.append_assoc]
      exact (endsVisibly_of_forall hne fun d hd => isBlank_of_isDigit (hdigits d hd)).append_left _
  | character =>
      obtain ⟨unit, -, rfl⟩ := h
      exact endsVisibly_append_singleton ('\'' :: unit) (by decide)
  | string =>
      obtain ⟨units, -, rfl⟩ := h
      exact endsVisibly_append_singleton ('"' :: units.flatten) (by decide)
  | operator =>
      have hall : ∀ op ∈ operators, op ≠ [] ∧ op.all (!isBlank ·) := by decide
      obtain ⟨hne, hvisible⟩ := hall cs h
      exact endsVisibly_of_forall hne fun c hc => by simpa using List.all_eq_true.mp hvisible c hc

/-! ## §2 Ends -/

/-- Where a token ends before white space it ends before the end of the text, unless it is a `-`. -/
theorem Kind.EndsBefore.of_append_blank {kind : Kind} {text rest back : List Char}
    (h : kind.EndsBefore text (rest ++ back)) :
    kind.EndsBefore text rest ∨ (kind = .operator ∧ text = ['-'] ∧ rest = []) := by
  cases rest with
  | cons c rest => exact .inl (h.of_head rfl)
  | nil =>
      by_cases hminus : kind = .operator ∧ text = ['-']
      · exact .inr ⟨hminus.1, hminus.2, rfl⟩
      · exact .inl (endsBefore_nil hminus)

theorem Kind.EndsBefore.append_margin {kind : Kind} {text rest back : List Char}
    (h : kind.EndsBefore text rest) (hback : ∀ c ∈ back, isBlank c) :
    kind.EndsBefore text (rest ++ back) := by
  cases back with
  | nil => rwa [List.append_nil]
  | cons w back => exact h.append_blank (hback w List.mem_cons_self) back

/-- What ends visibly at the front of a text and a margin lies in the text. -/
theorem EndsVisibly.exists_rest {text cs back rest : List Char} (h : EndsVisibly text)
    (hback : ∀ c ∈ back, isBlank c) (heq : text ++ rest = cs ++ back) :
    ∃ inside, cs = text ++ inside ∧ rest = inside ++ back := by
  obtain hinside | ⟨beyond, rfl, rfl⟩ := List.append_eq_append_iff.mp heq
  · exact hinside
  · obtain rfl | ⟨more, c, rfl⟩ := List.eq_nil_or_concat' beyond
    · exact ⟨[], by simp, rfl⟩
    · -- The last character would be one of the margin.
      obtain ⟨before, last, htext, hlast⟩ := h
      rw [← List.append_assoc] at htext
      obtain ⟨-, hc⟩ := List.append_inj' htext rfl
      obtain rfl := List.singleton_inj.mp hc
      rw [hback c (by simp)] at hlast
      cases hlast

/-! ## §3 Margins -/

/-- White space in front adds to all places. -/
theorem scanFrom_blank_append {front : List Char} (hfront : ∀ c ∈ front, isBlank c) (start : Nat)
    (cs : List Char) : scanFrom start (front ++ cs) = scanFrom (start + width front) cs := by
  induction front generalizing start with
  | nil => rfl
  | cons c front ih =>
      rw [List.forall_mem_cons] at hfront
      rw [List.cons_append, scanFrom_of_blank hfront.1, ih hfront.2, width_cons, Nat.add_assoc]

theorem scanFrom_blank {cs : List Char} (hcs : ∀ c ∈ cs, isBlank c) (start : Nat) :
    scanFrom start cs = .ok [] := by
  have h := scanFrom_blank_append hcs start []
  rwa [List.append_nil, scanFrom] at h

/-- White space behind a text that is scanned changes nothing. -/
theorem scanFrom_append_margin {start : Nat} {cs back : List Char} {ts : List Token}
    (h : scanFrom start cs = .ok ts) (hback : ∀ c ∈ back, isBlank c) :
    scanFrom start (cs ++ back) = .ok ts := by
  cases back with
  | nil => rwa [List.append_nil]
  | cons w back =>
      rw [List.forall_mem_cons] at hback
      rw [scanFrom_append_blank h hback.1, scanFrom_blank hback.2]
      exact congrArg Except.ok (List.append_nil ts)

/-- The last token is a minus sign. -/
def EndsInMinus (ts : List Token) : Prop :=
  ∃ before offset, ts = before ++ [⟨.operator, "-", offset⟩]

/-- **Margins behind.** A text that is scanned with white space behind it only ends in a `-`. -/
theorem endsInMinus_of_margin {start : Nat} {cs back : List Char} {ts : List Token} {e : LexError}
    (hback : ∀ c ∈ back, isBlank c) (hcs : scanFrom start cs = .error e)
    (h : scanFrom start (cs ++ back) = .ok ts) : EndsInMinus ts := by
  fun_induction scanFrom start cs generalizing ts with
  | case1 => cases hcs
  | case2 start c rest hblank ih =>
      rw [List.cons_append, scanFrom_of_blank hblank] at h
      exact ih hcs h
  | case3 start c rest hblank distance fault hscanned =>
      rw [List.cons_append] at h
      cases hlexeme : lexeme c (rest ++ back) with
      | error fault =>
          rw [scanFrom_of_fault hblank hlexeme] at h
          cases h
      | ok l =>
          have hproper := lexeme_proper hlexeme
          have htext := (lexeme_begins hlexeme).text_append_rest
          rw [← List.cons_append] at htext
          obtain ⟨inside, hinside, hrest⟩ := hproper.spells.endsVisibly.exists_rest hback htext
          have hends := hproper.ends
          rw [hrest] at hends
          obtain hends | ⟨hkind, hminus, rfl⟩ := hends.of_append_blank
          · -- The lexeme would have been scanned without the margin too.
            cases hscanned.symm.trans (lexeme_of_endsBefore hlexeme hends hinside)
          · rw [scanFrom_of_lexeme hblank hlexeme, hrest, List.nil_append,
              scanFrom_blank hback] at h
            cases h
            refine ⟨[], start, ?_⟩
            rw [Lexeme.token, hkind, hminus]
            rfl
  | case4 => cases hcs
  | case5 start c rest hblank l hscanned e' he' ih =>
      cases hcs
      have htext := (lexeme_begins hscanned).text_append_rest
      have hlexeme : lexeme c (rest ++ back) = .ok ⟨l.kind, l.text, l.rest ++ back⟩ := by
        refine lexeme_of_endsBefore hscanned ((lexeme_proper hscanned).ends.append_margin hback) ?_
        rw [← List.append_assoc, htext, List.cons_append]
      rw [List.cons_append, scanFrom_of_lexeme hblank hlexeme] at h
      cases hrest : scanFrom (start + width l.text) (l.rest ++ back) with
      | error e =>
          rw [hrest] at h
          cases h
      | ok us =>
          rw [hrest] at h
          cases h
          obtain ⟨before, offset, rfl⟩ := ih he' hrest
          exact ⟨_ :: before, offset, rfl⟩

section Texts

variable {front cs back : List Char}

/-- **White space around a text** that is scanned moves its tokens, and nothing else. -/
theorem scanFrom_margins (hfront : ∀ c ∈ front, isBlank c) (hback : ∀ c ∈ back, isBlank c)
    {ts : List Token} (h : scanFrom 0 cs = .ok ts) :
    scanFrom 0 (front ++ (cs ++ back)) = .ok (ts.map (moved (width front))) := by
  rw [scanFrom_blank_append hfront, Nat.zero_add, ← Nat.add_zero (width front),
    scanFrom_eq_behind, scanFrom_append_margin h hback]
  rfl

/-- A text that is scanned only with white space around it ends in a `-`. -/
theorem endsInMinus_of_margins (hfront : ∀ c ∈ front, isBlank c) (hback : ∀ c ∈ back, isBlank c)
    {e : LexError} (h : scanFrom 0 cs = .error e) {ts : List Token}
    (hscan : scanFrom 0 (front ++ (cs ++ back)) = .ok ts) : EndsInMinus ts := by
  rw [scanFrom_blank_append hfront, Nat.zero_add, ← Nat.add_zero (width front),
    scanFrom_eq_behind] at hscan
  cases hmargin : scanFrom 0 (cs ++ back) with
  | error e' =>
      rw [hmargin] at hscan
      cases hscan
  | ok us =>
      rw [hmargin] at hscan
      cases hscan
      obtain ⟨before, offset, rfl⟩ := endsInMinus_of_margin hback h hmargin
      exact ⟨before.map (moved (width front)), width front + offset, List.map_append ..⟩

end Texts

end Token

end DynImp
