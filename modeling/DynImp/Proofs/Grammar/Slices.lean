import DynImp.Proofs.Grammar.Trees
import DynImp.Proofs.Grammar.Phrase

/-!
# Parts span slices

Every expression and every statement inside a tree spans tokens that follow one another
without a gap in those of the tree.
-/

namespace DynImp

namespace Grammar

/-! ## §1 Slices -/

section Slices

variable {α β : Type} {P : α → List Token → Prop} {Q : β → List Token → Prop} {a : α} {b : β}
  {ts us : List Token}

/-- **Slices.** The tree spans some of the tokens, without a gap. -/
def HasSlice (P : α → List Token → Prop) (ts : List Token) (a : α) : Prop :=
  ∃ slice, slice <:+: ts ∧ P a slice

namespace HasSlice

theorem whole (h : P a ts) : HasSlice P ts a := ⟨ts, List.infix_refl ts, h⟩

theorem trans (h : HasSlice P ts a) (hP : ∀ us, P a us → HasSlice Q us b) : HasSlice Q ts b := by
  obtain ⟨us, hus, ha⟩ := h
  obtain ⟨slice, hslice, hb⟩ := hP us ha
  exact ⟨slice, hslice.trans hus, hb⟩

theorem cons (h : HasSlice P ts a) (t : Token) : HasSlice P (t :: ts) a := by
  obtain ⟨slice, hslice, ha⟩ := h
  exact ⟨slice, List.infix_cons hslice, ha⟩

theorem left (h : HasSlice P ts a) (us : List Token) : HasSlice P (ts ++ us) a := by
  obtain ⟨slice, hslice, ha⟩ := h
  exact ⟨slice, hslice.trans (List.prefix_append ts us).isInfix, ha⟩

theorem right (h : HasSlice P us a) (ts : List Token) : HasSlice P (ts ++ us) a := by
  obtain ⟨slice, hslice, ha⟩ := h
  exact ⟨slice, hslice.trans (List.suffix_append ts us).isInfix, ha⟩

end HasSlice

theorem Many.slices {opens : Token → Bool} {as : List α} (h : Many opens P as ts) :
    ∀ a ∈ as, HasSlice P ts a := by
  induction h with
  | nil => exact List.forall_mem_nil _
  | cons _ ha _ ih =>
      rw [List.forall_mem_cons]
      exact ⟨.left (.whole ha) _, fun a h => (ih a h).right _⟩

theorem Joined.slices {mark : String} {as : List α} (h : Joined mark P as ts) :
    ∀ a ∈ as, HasSlice P ts a := by
  induction h with
  | one ha => exact List.forall_mem_singleton.mpr (.whole ha)
  | more ha _ _ ih =>
      rw [List.forall_mem_cons]
      exact ⟨.left (.whole ha) _, fun a h => ((ih a h).cons _).right _⟩

/-- Slices of the members of a list are slices of the list. -/
theorem slices_flatMap {as : List α} {parts : α → List β} (has : ∀ a ∈ as, HasSlice P ts a)
    (hparts : ∀ a ∈ as, ∀ us, P a us → ∀ b ∈ parts a, HasSlice Q us b) :
    ∀ b ∈ as.flatMap parts, HasSlice Q ts b := by
  intro b hb
  obtain ⟨a, ha, hb⟩ := List.mem_flatMap.mp hb
  exact (has a ha).trans fun us hus => hparts a ha us hus b hb

end Slices

end Grammar

open Grammar

/-! ## §2 Expressions -/

theorem Expr.Spans.inner_slices {e : Expr Bare} {ts : List Token} (h : e.Spans ts) :
    ∀ d ∈ e.inner, HasSlice Expr.Spans ts d := by
  cases h with
  | literal | var | callNone => exact List.forall_mem_nil _
  | group _ hinner _ =>
      exact List.forall_mem_singleton.mpr (((HasSlice.whole hinner).left _).cons _)
  | binary hleft _ hright _ _ =>
      refine List.forall_mem_cons.mpr ⟨(HasSlice.whole hleft).left _, ?_⟩
      exact List.forall_mem_singleton.mpr (((HasSlice.whole hright).cons _).right _)
  | element _ _ hindex _ =>
      exact List.forall_mem_singleton.mpr ((((HasSlice.whole hindex).left _).cons _).cons _)
  | callSome _ _ _ hargs _ => exact fun d hd => (((hargs.slices d hd).left _).cons _).cons _
  | list _ hitems _ => exact fun d hd => ((hitems.slices d hd).left _).cons _

theorem Expr.Spans.slices {e : Expr Bare} {ts : List Token} (h : e.Spans ts) :
    ∀ part ∈ e.parts, HasSlice Expr.Spans ts part := by
  induction e using Expr.induct_inner generalizing ts with
  | step e ih =>
      rw [parts_eq, List.forall_mem_cons]
      exact ⟨.whole h, slices_flatMap h.inner_slices fun d hd _ => ih d hd⟩

namespace Grammar

theorem InitialPhrase.slices {value : Option (Expr Bare)} {ts : List Token}
    (h : InitialPhrase value ts) : ∀ e ∈ value.toList, HasSlice Expr.Spans ts e := by
  cases h with
  | none => exact List.forall_mem_nil _
  | some h =>
      cases h with
      | mk _ hvalue => exact List.forall_mem_singleton.mpr ((HasSlice.whole hvalue).cons _)

/-! ## §3 Statements -/

/-- The statements after an `ELSE`. -/
theorem Tail.slices {no : List (Stmt Bare)} {ns : List Token}
    (h : Tail "ELSE" (Many beginsStatement StmtSpans) no ns) :
    ∀ s ∈ no, HasSlice StmtSpans ns s := by
  intro s hs
  cases h with
  | none => cases hs
  | some _ hblock => exact (hblock.slices s hs).cons _

theorem CaseSpans.body_slices {c : Case Bare} {ts : List Token} (h : CaseSpans c ts) :
    ∀ s ∈ c.body, HasSlice StmtSpans ts s := by
  cases h with
  | valued _ _ _ hbody => exact fun s hs => (((hbody.slices s hs).cons _).right _).cons _

theorem CaseSpans.value_slices {c : Case Bare} {ts : List Token} (h : CaseSpans c ts) :
    ∀ e ∈ c.value.toList, HasSlice Expr.Spans ts e := by
  cases h with
  | valued _ hvalue _ _ =>
      exact List.forall_mem_singleton.mpr (((HasSlice.whole hvalue).left _).cons _)

theorem StmtSpans.inner_slices {s : Stmt Bare} {ts : List Token} (h : StmtSpans s ts) :
    ∀ t ∈ s.inner, HasSlice StmtSpans ts t := by
  cases h with
  | perform | declare | assign | giveBack => exact List.forall_mem_nil _
  | choose _ _ _ hyes hno _ =>
      rw [Stmt.inner, List.forall_mem_append]
      exact ⟨fun t ht => ((((hyes.slices t ht).left _).cons _).right _).cons _,
        fun t ht => (((((hno.slices t ht).left _).right _).cons _).right _).cons _⟩
  | switch _ _ hcases _ hbody _ =>
      rw [Stmt.inner, List.flatMap_append, List.flatMap_singleton, List.forall_mem_append]
      constructor
      · intro t ht
        have hcase := slices_flatMap hcases.slices (fun _ _ _ hspans => hspans.body_slices) t ht
        exact ((hcase.left _).right _).cons _
      · intro t ht
        exact (((((hbody.slices t ht).left _).cons _).right _).right _).cons _
  | loop _ _ _ hbody _ => exact fun t ht => ((((hbody.slices t ht).left _).cons _).right _).cons _

theorem StmtSpans.operand_slices {s : Stmt Bare} {ts : List Token} (h : StmtSpans s ts) :
    ∀ e ∈ s.operands, HasSlice Expr.Spans ts e := by
  cases h with
  | perform _ he _ => exact List.forall_mem_singleton.mpr ((HasSlice.whole he).left _)
  | declare _ _ _ hvalue _ =>
      exact fun e he => ((((hvalue.slices e he).left _).right _).cons _).cons _
  | assign _ hreceiver _ hvalue _ =>
      refine List.forall_mem_cons.mpr ⟨(HasSlice.whole hreceiver).left _, ?_⟩
      exact List.forall_mem_singleton.mpr ((((HasSlice.whole hvalue).left _).cons _).right _)
  | choose _ hcondition _ _ _ _ | loop _ hcondition _ _ _ =>
      exact List.forall_mem_singleton.mpr (((HasSlice.whole hcondition).left _).cons _)
  | switch _ hsubject hcases _ _ _ =>
      rw [Stmt.operands, List.forall_mem_cons, List.flatMap_append, List.forall_mem_append]
      refine ⟨((HasSlice.whole hsubject).left _).cons _, fun e he => ?_, List.forall_mem_nil _⟩
      have hcase := slices_flatMap hcases.slices (fun _ _ _ hspans => hspans.value_slices) e he
      exact ((hcase.left _).right _).cons _
  | giveBack _ hvalue _ =>
      exact List.forall_mem_singleton.mpr (((HasSlice.whole hvalue).left _).cons _)

theorem StmtSpans.slices {s : Stmt Bare} {ts : List Token} (h : StmtSpans s ts) :
    ∀ part ∈ s.parts, HasSlice StmtSpans ts part := by
  induction s using Stmt.induct_inner generalizing ts with
  | step s ih =>
      rw [Stmt.parts_eq, List.forall_mem_cons]
      exact ⟨.whole h, slices_flatMap h.inner_slices fun t ht _ => ih t ht⟩

theorem StmtSpans.expr_slices {s : Stmt Bare} {ts : List Token} (h : StmtSpans s ts) :
    ∀ e ∈ s.exprs, HasSlice Expr.Spans ts e := by
  induction s using Stmt.induct_inner generalizing ts with
  | step s ih =>
      intro e he
      obtain he | he := Stmt.mem_exprs.mp he
      · exact slices_flatMap h.operand_slices (fun _ _ _ hspans => hspans.slices) e he
      · exact slices_flatMap h.inner_slices (fun t ht _ => ih t ht) e he

/-! ## §4 Programs -/

/-- In the tokens of a text the value of a global is an expression, that of a `LIST` too. -/
theorem GlobalSpans.value_slices {g : Global Bare} {ts : List Token} (h : GlobalSpans g ts)
    (hopens : ∀ t ∈ ts, t.spells "[" → t.Opens "[") :
    ∀ e ∈ g.value.toList, HasSlice Expr.Spans ts e := by
  cases h with
  | var _ _ _ hvalue => exact fun e he => (((hvalue.slices e he).right _).cons _).cons _
  | val _ _ _ _ hvalue =>
      exact List.forall_mem_singleton.mpr
        (((((HasSlice.whole hvalue).cons _).right _).cons _).cons _)
  | list _ _ _ _ hopening hitems hclosing =>
      have hopening' := hopens _ (by simp) hopening
      have hvalue : Expr.Spans (.list _ () _) _ := .list hopening' hitems hclosing
      exact List.forall_mem_singleton.mpr
        (((((HasSlice.whole hvalue).cons _).right _).cons _).cons _)

theorem FunctionSpans.body_slices {f : Function Bare} {ts : List Token} (h : FunctionSpans f ts) :
    ∀ s ∈ f.body, HasSlice StmtSpans ts s := by
  intro s hs
  cases h with
  | mk _ _ _ _ _ _ hbody _ =>
      exact ((((((hbody.slices s hs).left _).cons _).right _ |>.right _).cons _).cons _).cons _

namespace ProgramSpans

variable {p : Program Bare} {ts : List Token}

theorem global_slices (h : ProgramSpans p ts) : ∀ g ∈ p.globals, HasSlice GlobalSpans ts g := by
  intro g hg
  cases h with
  | mk hglobals _ =>
      refine HasSlice.trans ((hglobals.slices g hg).left _) fun us hus => ?_
      cases hus with
      | mk hspans _ => exact .left (.whole hspans) _

theorem function_slices (h : ProgramSpans p ts) :
    ∀ f ∈ p.functions, HasSlice FunctionSpans ts f := by
  intro f hf
  cases h with
  | mk _ hfunctions => exact (hfunctions.slices f hf).right _

theorem stmt_slices (h : ProgramSpans p ts) : ∀ s ∈ p.stmts, HasSlice StmtSpans ts s := by
  intro s hs
  obtain ⟨f, hf, hs⟩ := List.mem_flatMap.mp hs
  rw [Stmt.blockParts_eq] at hs
  refine (h.function_slices f hf).trans fun us hus => ?_
  exact slices_flatMap hus.body_slices (fun _ _ _ hspans => hspans.slices) s hs

theorem expr_slices (h : ProgramSpans p ts) (hopens : ∀ t ∈ ts, t.spells "[" → t.Opens "[") :
    ∀ e ∈ p.exprs, HasSlice Expr.Spans ts e := by
  rw [Program.exprs, List.forall_mem_append]
  constructor
  · intro e he
    obtain ⟨g, hg, he⟩ := List.mem_flatMap.mp he
    obtain ⟨us, hus, hspans⟩ := h.global_slices g hg
    rw [Expr.someParts_eq] at he
    obtain ⟨slice, hslice, he⟩ := slices_flatMap
      (hspans.value_slices fun t ht => hopens t (hus.subset ht))
      (fun _ _ _ hvalue => hvalue.slices) e he
    exact ⟨slice, hslice.trans hus, he⟩
  · intro e he
    obtain ⟨f, hf, he⟩ := List.mem_flatMap.mp he
    rw [Stmt.blockExprs_eq] at he
    refine (h.function_slices f hf).trans fun us hus => ?_
    exact slices_flatMap hus.body_slices (fun _ _ _ hspans => hspans.expr_slices) e he

end ProgramSpans

end Grammar

end DynImp
