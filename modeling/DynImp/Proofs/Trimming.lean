import DynImp.Console
import DynImp.Proofs.Grammar.Relocated
import DynImp.Proofs.Layout
import DynImp.Proofs.Token.Margins

/-!
# Trimming does not matter

A line at the prompt is trimmed before it is run, the content of a file is not.  A text and
what is left of it are the same program all the same, at places that differ by what was
trimmed in front.

* **Layer A: ends of programs.** The one text that is scanned with white space behind it only,
  one with a `-` at its end, is no program.
* **Layer B: reading** a text with white space around it.
* **Layer C: texts**, through all stages.
-/

namespace DynImp

open Grammar

/-! ## §1 Ends of programs -/

namespace Grammar

/-- The last token is the keyword or mark. -/
def EndsIn (word : String) (ts : List Token) : Prop :=
  ∃ before last, ts = before ++ [last] ∧ last.spells word

theorem EndsIn.append_left {word : String} {ts : List Token} (h : EndsIn word ts)
    (front : List Token) : EndsIn word (front ++ ts) := by
  obtain ⟨before, last, rfl, hlast⟩ := h
  exact ⟨front ++ before, last, (List.append_assoc ..).symm, hlast⟩

/-- Phrases that all end in a word end in it. -/
theorem Many.endsIn {α : Type} {opens : Token → Bool} {P : α → List Token → Prop} {word : String}
    {as : List α} {ts : List Token} (h : Many opens P as ts)
    (hP : ∀ a us, P a us → EndsIn word us) : ts = [] ∨ EndsIn word ts := by
  induction h with
  | nil => exact .inl rfl
  | cons _ ha _ ih =>
      right
      obtain rfl | hrest := ih
      · rw [List.append_nil]
        exact hP _ _ ha
      · exact hrest.append_left _

theorem FunctionSpans.endsIn {x : Function Bare} {ts : List Token} (h : FunctionSpans x ts) :
    EndsIn "END" ts := by
  cases h with
  | @mk word name opening params ps type us doWord body bs endWord _ _ _ _ _ _ _ hend =>
      exact ⟨word :: name :: opening :: (ps ++ (us ++ doWord :: bs)), endWord, by simp, hend⟩

/-- A program ends in a semicolon or an `END`. -/
theorem ProgramSpans.endsIn {p : Program Bare} {ts : List Token} (h : ProgramSpans p ts) :
    ts = [] ∨ EndsIn ";" ts ∨ EndsIn "END" ts := by
  cases h with
  | @mk globals gs functions fs hglobals hfunctions =>
      obtain rfl | hend := hfunctions.endsIn fun _ _ hx => hx.endsIn
      · rw [List.append_nil]
        have hends : gs = [] ∨ EndsIn ";" gs := hglobals.endsIn fun x us hus => by
          cases hus with
          | mk _ hsemi => exact ⟨_, _, rfl, hsemi⟩
        exact hends.imp_right .inl
      · exact .inr (.inr (hend.append_left gs))

end Grammar

namespace Program

theorem ofTokens_of_endsInMinus {ts : List Token} (h : Token.EndsInMinus ts) :
    ∃ e, Program.ofTokens ts = .error e := by
  cases hread : Program.ofTokens ts with
  | error e => exact ⟨e, rfl⟩
  | ok p =>
      obtain ⟨before, offset, rfl⟩ := h
      -- Neither of the two last words of programs is a minus sign.
      obtain hnil | ⟨_, last, heq, hlast⟩ | ⟨_, last, heq, hlast⟩ :=
        (ofTokens_eq_ok_iff.mp hread).endsIn
      · exact absurd hnil (List.append_ne_nil_of_right_ne_nil _ (List.cons_ne_nil _ _))
      all_goals
        obtain ⟨-, hsame⟩ := List.append_inj' heq rfl
        obtain rfl := List.singleton_inj.mp hsame
        simp [Token.spells] at hlast

theorem ofTokens_relocated {ts : List Token} {p : Program Bare}
    (h : Program.ofTokens ts = .ok p) (f : Nat → Nat) :
    Program.ofTokens (ts.map (Token.relocated f)) = .ok (p.relocated f) :=
  ofTokens_eq_ok_iff.mpr (ofTokens_eq_ok_iff.mp h).relocated

/-- What is refused is refused wherever it stands. -/
theorem ofTokens_relocated_error {ts : List Token} {e : ParseError}
    (h : Program.ofTokens ts = .error e) (f : Nat → Nat) :
    ∃ e', Program.ofTokens (ts.map (Token.relocated f)) = .error e' := by
  have hfaces : (ts.map (Token.relocated f)).map Token.face = ts.map Token.face := by
    rw [List.map_map]
    rfl
  have hreading := sameReading_of_faces hfaces
  rw [h] at hreading
  generalize Program.ofTokens (ts.map (Token.relocated f)) = r at hreading
  cases hreading with
  | error => exact ⟨_, rfl⟩

end Program

namespace Console

open DynImp.Text Typing

/-! ## §2 Reading -/

/-- The bytes that are trimmed in front of a text. -/
def margin (text : String) : Nat := width (text.toList.takeWhile isBlank)

/-- Trimming takes off white space. -/
theorem trim_toList (text : String) :
    ∃ back, (∀ c ∈ back, isBlank c) ∧
      text.toList = text.toList.takeWhile isBlank ++ ((trim text).toList ++ back) := by
  refine ⟨((text.toList.dropWhile isBlank).reverse.takeWhile isBlank).reverse, ?_, ?_⟩
  · intro c hc
    exact List.all_eq_true.mp List.all_takeWhile c (List.mem_reverse.mp hc)
  · rw [trim, String.toList_ofList, ← List.reverse_append, List.takeWhile_append_dropWhile,
      List.reverse_reverse, List.takeWhile_append_dropWhile]

theorem isBlank_of_mem_margin (text : String) :
    ∀ c ∈ text.toList.takeWhile isBlank, isBlank c :=
  List.all_eq_true.mp List.all_takeWhile

/-- What a trimmed text is read as the text is read as, at places further on. -/
theorem parse_of_trim {text : String} {p : Program Bare} (h : Source.parse (trim text) = .ok p) :
    Source.parse text = .ok (p.relocated (margin text + ·)) := by
  obtain ⟨back, hback, htext⟩ := trim_toList text
  unfold Source.parse Token.scan at h ⊢
  split at h
  · cases h
  · next ts hscan =>
      have hmargins := Token.scanFrom_margins (isBlank_of_mem_margin text) hback hscan
      rw [← htext] at hmargins
      rw [hmargins]
      cases hread : Program.ofTokens ts with
      | error e =>
          rw [hread] at h
          cases h
      | ok p' =>
          rw [hread] at h
          cases h
          exact congrArg (Except.mapError Source.Failure.parse) (Program.ofTokens_relocated hread _)

/-- A text is refused if it is refused when it is trimmed. -/
theorem parse_of_trim_error {text : String} {e : Source.Failure}
    (h : Source.parse (trim text) = .error e) : ∃ e', Source.parse text = .error e' := by
  obtain ⟨back, hback, htext⟩ := trim_toList text
  unfold Source.parse Token.scan at h ⊢
  have hmargin := isBlank_of_mem_margin text
  split at h
  · next e hscan =>
      cases hwhole : Token.scanFrom 0 text.toList with
      | error e' => exact ⟨_, rfl⟩
      | ok ts =>
          rw [htext] at hwhole
          have hminus := Token.endsInMinus_of_margins hmargin hback hscan hwhole
          obtain ⟨e', he'⟩ := Program.ofTokens_of_endsInMinus hminus
          exact ⟨.parse e', congrArg (Except.mapError Source.Failure.parse) he'⟩
  · next ts hscan =>
      have hmargins := Token.scanFrom_margins hmargin hback hscan
      rw [← htext] at hmargins
      rw [hmargins]
      cases hread : Program.ofTokens ts with
      | ok p =>
          rw [hread] at h
          cases h
      | error e =>
          obtain ⟨e', he'⟩ := Program.ofTokens_relocated_error hread (margin text + ·)
          exact ⟨.parse e', congrArg (Except.mapError Source.Failure.parse) he'⟩

/-! ## §3 Texts -/

/-- **Same outcome** of a text and of the trimmed text, in all stages. -/
inductive TrimmedOutcome (text : String) : Prop where
  /-- Both are refused by the scanner or the parser. -/
  | refused {e e'} : Source.parse text = .error e → Source.parse (trim text) = .error e' →
      TrimmedOutcome text
  /-- Both are rejected by the checker, for the same fault.  The places differ by the bytes that are
  trimmed in front, but if there is no `main`, both point at the beginning. -/
  | rejected {e e'} : Source.check text = .error (.type e) →
      Source.check (trim text) = .error (.type e') → e.fault = e'.fault →
      (e.fault = .missingMain → e.offset = 0 ∧ e'.offset = 0) →
      (e.fault ≠ .missingMain → e.offset = margin text + e'.offset) → TrimmedOutcome text
  /-- Both are accepted and do the same: with any bound on the depth they end with the same value,
  the same fault or not within the bound, and in the same world, what was printed included. -/
  | accepted {q q'} : Source.check text = .ok q → Source.check (trim text) = .ok q' →
      (∀ n, q.run n = q'.run n) → (∀ n, Source.run n text = Source.run n (trim text)) →
      TrimmedOutcome text

/-- **Trimming does not matter.** -/
theorem trimmedOutcome (text : String) : TrimmedOutcome text := by
  cases hparse' : Source.parse (trim text) with
  | error e' =>
      obtain ⟨e, hparse⟩ := parse_of_trim_error hparse'
      exact .refused hparse hparse'
  | ok p =>
      have hparse := parse_of_trim hparse'
      have hcheck : Source.check text =
          (p.relocated (margin text + ·)).check.mapError .type := by
        rw [Source.check, hparse]
      have hcheck' : Source.check (trim text) = p.check.mapError .type := by
        rw [Source.check, hparse']
      have hmoved := check_relocates (margin text + ·) p
      have hmissing : ∀ e, p.check = .error e → e.fault = .missingMain → e.offset = 0 :=
        fun e => Program.offset_of_missingMain
      generalize p.check = x' at hcheck' hmoved hmissing
      generalize (p.relocated (margin text + ·)).check = x at hcheck hmoved
      cases hmoved with
      | error e' =>
          refine .rejected hcheck hcheck' (e'.relocated_fault _) (fun hfault => ?_)
            fun hfault => ?_
          · rw [TypeError.relocated_fault] at hfault
            rw [TypeError.relocated_of_missingMain hfault]
            exact ⟨hmissing e' rfl hfault, hmissing e' rfl hfault⟩
          · rw [TypeError.relocated_fault] at hfault
            rw [TypeError.relocated_of_ne hfault]
      | ok q =>
          have hrun := Program.run_congr (q.unplaced_relocated (margin text + ·))
          exact .accepted hcheck hcheck' hrun fun n => Source.run_congr hcheck hcheck' (hrun n)

end Console

end DynImp
