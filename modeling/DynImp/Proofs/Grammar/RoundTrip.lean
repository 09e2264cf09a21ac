import DynImp.Proofs.Grammar.Texts

/-!
# Grammatical programs survive being written

Every grammatical program has a text, and whatever tokens write it are read as the same
program up to places.
-/

namespace DynImp

open Grammar

variable {ν : Notes}

/-! ## §1 Expressions -/

theorem BinaryOp.symbol_proper (op : BinaryOp) : (Word.mark op.symbol).Proper := by
  cases op <;> decide

theorem Unreserved.proper {name : String} (h : Unreserved name) : (Word.name name).Proper := h.1

namespace Grammar

theorem enumeration_proper {α : Type} {words : α → List Word} {as : List α}
    (h : ∀ a ∈ as, ∀ w ∈ words a, w.Proper) : ∀ w ∈ enumeration words as, w.Proper := by
  induction as with
  | nil => exact List.forall_mem_nil _
  | cons a as ih =>
      rw [List.forall_mem_cons] at h
      cases as with
      | nil => exact h.1
      | cons b rest =>
          rw [enumeration, List.forall_mem_append, List.forall_mem_cons]
          exact ⟨h.1, by decide, ih h.2⟩

theorem typeWords_proper {type : Option String} (h : ∀ t ∈ type, Identifier t) :
    ∀ w ∈ typeWords type, w.Proper := by
  cases type with
  | none => exact List.forall_mem_nil _
  | some name =>
      rw [typeWords, List.forall_mem_cons, List.forall_mem_singleton]
      exact ⟨by decide, h name rfl⟩

end Grammar

theorem Expr.Grammatical.proper {e : Expr ν} (h : Expr.Grammatical e.parts) :
    ∀ w ∈ e.words, w.Proper := by
  induction e using Expr.induct_inner with
  | step e ih =>
      have hinner : ∀ d ∈ e.inner, ∀ w ∈ d.words, w.Proper := fun d hd => ih d hd (h.inner hd)
      have hregular := h.regular
      cases e with
      | literal o τ v => exact List.forall_mem_singleton.mpr hregular
      | group o τ inner =>
          rw [words, List.forall_mem_cons, List.forall_mem_append, List.forall_mem_singleton]
          exact ⟨by decide, hinner inner List.mem_cons_self, by decide⟩
      | binary τ op left right =>
          rw [Expr.inner, List.forall_mem_cons, List.forall_mem_singleton] at hinner
          rw [words, List.forall_mem_append, List.forall_mem_cons]
          exact ⟨hinner.1, op.symbol_proper, hinner.2⟩
      | var o τ x name => exact List.forall_mem_singleton.mpr (Unreserved.proper hregular)
      | element o τ x name index =>
          rw [words, List.forall_mem_cons, List.forall_mem_cons, List.forall_mem_append,
            List.forall_mem_singleton]
          exact ⟨Unreserved.proper hregular, by decide, hinner index List.mem_cons_self, by decide⟩
      | call o τ f name args =>
          rw [words, allWords_eq, List.forall_mem_cons, List.forall_mem_cons,
            List.forall_mem_append, List.forall_mem_singleton]
          exact ⟨Unreserved.proper hregular, by decide, enumeration_proper hinner, by decide⟩
      | list o τ items =>
          rw [words, allWords_eq, List.forall_mem_cons, List.forall_mem_append,
            List.forall_mem_singleton]
          exact ⟨by decide, enumeration_proper hinner, by decide⟩

theorem Expr.initialWords_proper {value : Option (Expr ν)}
    (h : ∀ e ∈ value.toList, Grammatical e.parts) : ∀ w ∈ initialWords value, w.Proper := by
  cases value with
  | none => exact List.forall_mem_nil _
  | some e =>
      rw [initialWords, List.forall_mem_cons]
      exact ⟨by decide, (h e List.mem_cons_self).proper⟩

/-! ## §2 Statements -/

theorem flatMap_proper {α : Type} {words : α → List Word} {as : List α}
    (h : ∀ a ∈ as, ∀ w ∈ words a, w.Proper) : ∀ w ∈ as.flatMap words, w.Proper := by
  intro w hw
  obtain ⟨a, ha, hw⟩ := List.mem_flatMap.mp hw
  exact h a ha w hw

/-- The words of a case, if those of its body are proper. -/
theorem Case.words_proper {c : Case ν} (hvalue : ∀ e ∈ c.value.toList, Expr.Grammatical e.parts)
    (hbody : ∀ s ∈ c.body, ∀ w ∈ s.words, w.Proper) : ∀ w ∈ c.words, w.Proper := by
  obtain ⟨o, value, body⟩ := c
  cases value with
  | none =>
      rw [words, Stmt.blockWords_eq, List.forall_mem_cons]
      exact ⟨by decide, flatMap_proper hbody⟩
  | some e =>
      rw [words, Stmt.blockWords_eq, List.forall_mem_cons, List.forall_mem_append,
        List.forall_mem_cons]
      exact ⟨by decide, (hvalue e List.mem_cons_self).proper, by decide, flatMap_proper hbody⟩

theorem Stmt.Valid.proper {s : Stmt ν} (h : s.Valid) : ∀ w ∈ s.words, w.Proper := by
  induction s using Stmt.induct_inner with
  | step s ih =>
      have hinner : ∀ t ∈ s.inner, ∀ w ∈ t.words, w.Proper := fun t ht => ih t ht (h.inner ht)
      have hoperands : ∀ e ∈ s.operands, Expr.Grammatical e.parts := fun e he => h.operand he
      cases s with
      | perform e =>
          rw [words, List.forall_mem_append, List.forall_mem_singleton]
          exact ⟨(hoperands e List.mem_cons_self).proper, by decide⟩
      | declare o x name type value =>
          obtain ⟨hname, htype⟩ : Unreserved name ∧ ∀ t ∈ type, Identifier t := h.regular
          simp only [words, List.forall_mem_cons, List.forall_mem_append]
          exact ⟨by decide, hname.proper, typeWords_proper htype,
            Expr.initialWords_proper hoperands, by decide, List.forall_mem_nil _⟩
      | assign receiver value =>
          rw [operands, List.forall_mem_cons, List.forall_mem_singleton] at hoperands
          simp only [words, List.forall_mem_cons, List.forall_mem_append]
          exact ⟨hoperands.1.proper, by decide, hoperands.2.proper, by decide,
            List.forall_mem_nil _⟩
      | choose condition yes no =>
          rw [Stmt.inner, List.forall_mem_append] at hinner
          have helse : ∀ w ∈ if no.isEmpty then [] else Word.name "ELSE" :: no.flatMap words,
              w.Proper := by
            split
            · exact List.forall_mem_nil _
            · exact List.forall_mem_cons.mpr ⟨by decide, flatMap_proper hinner.2⟩
          simp only [words, blockWords_eq, List.forall_mem_cons, List.forall_mem_append]
          exact ⟨by decide, (hoperands condition List.mem_cons_self).proper, by decide,
            flatMap_proper hinner.1, helse, by decide, List.forall_mem_nil _⟩
      | switch subject cases =>
          rw [operands, List.forall_mem_cons, List.forall_mem_flatMap] at hoperands
          rw [Stmt.inner, List.forall_mem_flatMap] at hinner
          have hcases := flatMap_proper fun c hc =>
            Case.words_proper (hoperands.2 c hc) (hinner c hc)
          simp only [words, Case.allWords_eq, List.forall_mem_cons, List.forall_mem_append]
          exact ⟨by decide, hoperands.1.proper, hcases, by decide, List.forall_mem_nil _⟩
      | loop condition body =>
          simp only [words, blockWords_eq, List.forall_mem_cons, List.forall_mem_append]
          exact ⟨by decide, (hoperands condition List.mem_cons_self).proper, by decide,
            flatMap_proper hinner, by decide, List.forall_mem_nil _⟩
      | giveBack value =>
          simp only [words, List.forall_mem_cons, List.forall_mem_append]
          exact ⟨by decide, (hoperands value List.mem_cons_self).proper, by decide,
            List.forall_mem_nil _⟩

/-! ## §3 Programs -/

theorem Global.Grammatical.proper {g : Global ν} (h : g.Grammatical)
    (hvalue : ∀ e ∈ g.value.toList, Expr.Grammatical e.parts) : ∀ w ∈ g.words, w.Proper := by
  have hkeyword : (Word.name g.keyword).Proper := by
    unfold Global.keyword
    split
    · decide
    · split <;> decide
  simp only [words, List.forall_mem_cons, List.forall_mem_append]
  exact ⟨hkeyword, h.name.proper, typeWords_proper h.type, Expr.initialWords_proper hvalue⟩

theorem Parameter.Grammatical.proper {x : Parameter} (h : x.Grammatical) :
    ∀ w ∈ x.words, w.Proper := by
  rw [words, List.forall_mem_cons]
  exact ⟨h.name.proper, typeWords_proper h.type⟩

theorem Function.Grammatical.proper {f : Function ν} (h : f.Grammatical)
    (hbody : ∀ s ∈ f.body, ∀ w ∈ s.words, w.Proper) : ∀ w ∈ f.words, w.Proper := by
  simp only [words, List.forall_mem_cons, List.forall_mem_append]
  exact ⟨by decide, h.name.proper, by decide,
    ⟨enumeration_proper fun x hx => (h.params x hx).proper, by decide, List.forall_mem_nil _⟩,
    typeWords_proper h.returnType, by decide, flatMap_proper hbody, by decide,
    List.forall_mem_nil _⟩

theorem Program.Grammatical.proper {p : Program ν} (h : p.Grammatical) :
    ∀ w ∈ p.words, w.Proper := by
  rw [words, List.forall_mem_append]
  refine ⟨flatMap_proper fun g hg => ?_, flatMap_proper fun f hf => ?_⟩
  · rw [List.forall_mem_append, List.forall_mem_singleton]
    exact ⟨(h.globals g hg).proper fun _ he => h.value hg he, by decide⟩
  · exact (h.functions f hf).proper fun s hs => (h.body hf hs).proper

/-- **Text.** The text of a program: its words with a space after each. -/
def Program.text (p : Program ν) : String := String.ofList (Word.layOut p.words)

/-- **Completeness of the parser.** A grammatical program has a text, and tokens that write the
program are read as the program up to places. -/
theorem Program.ofTokens_complete {p : Program Bare} (h : p.Grammatical) :
    (∃ ts, Token.scan p.text = .ok ts ∧ Token.WriteAll ts p.words) ∧
      ∀ ts, Token.WriteAll ts p.words →
        ∃ q, Program.ofTokens ts = .ok q ∧ q.unplaced = p.unplaced := by
  refine ⟨Word.exists_scan h.proper, fun ts hts => ?_⟩
  obtain ⟨q, hq, hview⟩ := program_rereads h hts
  exact ⟨q, ofTokens_eq_ok_iff.mpr hq, hview⟩

namespace Program

/-- `LIST xs = [-0.50]; FUN main(s: String): Integer DO SWITCH s CASE "\"": DEFAULT END
RETURN (1 + s) * 2; END`, apart from the places. -/
def quoting : Program Bare where
  globals := [⟨0, (), "xs", none, true, true,
    some (.list 0 () [.literal 0 () (.decimal ⟨-50, 2⟩)])⟩]
  functions := [⟨0, (), "main", [⟨"s", some "String"⟩], some "Integer",
    [.switch (.var 0 () () "s") [.mk 0 (some (.literal 0 () (.string "\""))) [], .mk 0 none []],
      .giveBack (.binary () .multiply (.group 0 () (.binary () .add
        (.literal 0 () (.integer 1)) (.var 0 () () "s"))) (.literal 0 () (.integer 2)))]⟩]

theorem quoting_read_back :
    quoting.Grammatical ∧ ∀ ts, Token.WriteAll ts quoting.words →
      ∃ q, Program.ofTokens ts = .ok q ∧ q.unplaced = quoting.unplaced := by
  have h : quoting.Grammatical := by
    refine ⟨by decide, by decide, ?_, ?_⟩
    · exact List.forall_mem_singleton.mpr
        ⟨by decide, by decide, fun _ => ⟨rfl, _, _, _, rfl⟩, fun h => nomatch h⟩
    · exact List.forall_mem_singleton.mpr
        ⟨by decide, List.forall_mem_singleton.mpr ⟨by decide, by decide⟩, by decide⟩
  exact ⟨h, (ofTokens_complete h).2⟩

end Program

end DynImp
