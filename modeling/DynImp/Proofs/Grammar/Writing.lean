import DynImp.Proofs.Grammar.Trees
import DynImp.Proofs.Grammar.Words

/-!
# Phrases are writings

The tokens that a tree spans are a writing of its words.  The proof goes along the tree; each
kind of node has its keywords and marks in place, and its parts span slices that are
writings of theirs.
-/

namespace DynImp

open Grammar

/-! ## §1 Expressions -/

theorem Expr.Spans.written {e : Expr Bare} {ts : List Token} (h : e.Spans ts)
    (hts : ∀ t ∈ ts, t.Spelled) : Written ts e.words := by
  induction e using Expr.induct generalizing ts with
  | literal =>
      cases h with
      | literal hv => exact .one hv
  | group o τ inner ih =>
      cases h with
      | group hopening hinner hclosing =>
          simp only [List.forall_mem_cons, List.forall_mem_append] at hts
          obtain ⟨-, hinners, hclose, -⟩ := hts
          exact .cons hopening ((ih hinner hinners).append
            (.one (hclose.writes_mark hclosing (by decide))))
  | binary τ op left right ihl ihr =>
      cases h with
      | binary hleft hop hright _ _ =>
          simp only [List.forall_mem_cons, List.forall_mem_append] at hts
          obtain ⟨hlefts, -, hrights⟩ := hts
          exact (ihl hleft hlefts).append (.cons hop.writes (ihr hright hrights))
  | var =>
      cases h with
      | var hname => exact .one ⟨hname.1, rfl⟩
  | element o τ x name index ih =>
      cases h with
      | element hname hopening hindex hclosing =>
          simp only [List.forall_mem_cons, List.forall_mem_append] at hts
          obtain ⟨-, hopen, hindexs, hclose, -⟩ := hts
          exact .cons ⟨hname.1, rfl⟩ (.cons (hopen.writes_mark hopening (by decide))
            ((ih hindex hindexs).append (.one (hclose.writes_mark hclosing (by decide)))))
  | call o τ f name args ih =>
      cases h with
      | callNone hname hopening hclosing =>
          simp only [List.forall_mem_cons] at hts
          obtain ⟨-, hopen, hclose, -⟩ := hts
          exact .cons ⟨hname.1, rfl⟩ (.cons (hopen.writes_mark hopening (by decide))
            (.one (hclose.writes_mark hclosing (by decide))))
      | callSome hname hopening _ hargs hclosing =>
          simp only [List.forall_mem_cons, List.forall_mem_append] at hts
          obtain ⟨-, hopen, hargss, hclose, -⟩ := hts
          rw [words, allWords_eq]
          exact .cons ⟨hname.1, rfl⟩ (.cons (hopen.writes_mark hopening (by decide))
            ((hargs.written (fun arg harg _ => ih arg harg) hargss).append
              (.one (hclose.writes_mark hclosing (by decide)))))
  | list o τ items ih =>
      cases h with
      | list hopening hitems hclosing =>
          simp only [List.forall_mem_cons, List.forall_mem_append] at hts
          obtain ⟨-, hitemss, hclose, -⟩ := hts
          rw [words, allWords_eq]
          exact .cons hopening ((hitems.written (fun item hitem _ => ih item hitem) hitemss).append
            (.one (hclose.writes_mark hclosing (by decide))))

namespace Grammar

theorem InitialPhrase.written {value : Option (Expr Bare)} {ts : List Token}
    (h : InitialPhrase value ts) (hts : ∀ t ∈ ts, t.Spelled) :
    Written ts (Expr.initialWords value) := by
  cases h with
  | none => exact .nil
  | some h =>
      cases h with
      | mk hequals hvalue =>
          rw [List.forall_mem_cons] at hts
          exact .cons (hts.1.writes_mark hequals (by decide)) (hvalue.written hts.2)

/-! ## §2 Statements -/

/-- What is after an `ELSE` is written, or nothing if no statement is, up to the `END`. -/
theorem Tail.written {no : List (Stmt Bare)} {ns : List Token} {endWord : Token}
    (h : Tail "ELSE" (Many beginsStatement StmtSpans) no ns)
    (hno : ∀ s ∈ no, ∀ ts, StmtSpans s ts → (∀ t ∈ ts, t.Spelled) → Written ts s.words)
    (hend : endWord.Writes (.name "END")) (hns : ∀ t ∈ ns, t.Spelled) :
    Written (ns ++ [endWord])
      ((if no.isEmpty then [] else .name "ELSE" :: no.flatMap Stmt.words) ++ [.name "END"]) := by
  cases h with
  | none => exact .one hend
  | some helse hblock =>
      rw [List.forall_mem_cons] at hns
      have helse' := hns.1.writes_name helse (by decide)
      cases hblock with
      | nil => exact .emptyElse helse' hend (.one hend)
      | cons hopens hs hrest =>
          exact .cons helse' (((Many.cons hopens hs hrest).written hno hns.2).append (.one hend))

/-- A case with a value is written if its body is. -/
theorem CaseSpans.written {c : Case Bare} {ts : List Token} (h : CaseSpans c ts)
    (hbody : ∀ s ∈ c.body, ∀ ts, StmtSpans s ts → (∀ t ∈ ts, t.Spelled) → Written ts s.words)
    (hts : ∀ t ∈ ts, t.Spelled) : Written ts c.words := by
  cases h with
  | valued hword hvalue hcolon hblock =>
      simp only [List.forall_mem_cons, List.forall_mem_append] at hts
      obtain ⟨hcase, hvalues, hmark, hbodys⟩ := hts
      rw [Case.words, Stmt.blockWords_eq]
      exact .cons (hcase.writes_name hword (by decide)) ((hvalue.written hvalues).append
        (.cons (hmark.writes_mark hcolon (by decide)) (hblock.written hbody hbodys)))

theorem StmtSpans.written {s : Stmt Bare} {ts : List Token} (h : StmtSpans s ts)
    (hts : ∀ t ∈ ts, t.Spelled) : Written ts s.words := by
  induction s using Stmt.induct generalizing ts with
  | perform e =>
      cases h with
      | perform _ he hsemi =>
          simp only [List.forall_mem_cons, List.forall_mem_append] at hts
          obtain ⟨hes, hmark, -⟩ := hts
          exact (he.written hes).append (.one (hmark.writes_mark hsemi (by decide)))
  | declare o x name type value =>
      cases h with
      | declare hword hname htype hvalue hsemi =>
          simp only [List.forall_mem_cons, List.forall_mem_append] at hts
          obtain ⟨hlet, -, htypes, hvalues, hmark, -⟩ := hts
          exact .cons (hlet.writes_name hword (by decide)) (.cons ⟨hname, rfl⟩
            ((htype.written htypes).append ((hvalue.written hvalues).append
              (.one (hmark.writes_mark hsemi (by decide))))))
  | assign receiver value =>
      cases h with
      | assign _ hreceiver hequals hvalue hsemi =>
          simp only [List.forall_mem_cons, List.forall_mem_append] at hts
          obtain ⟨hreceivers, hequal, hvalues, hmark, -⟩ := hts
          exact (hreceiver.written hreceivers).append
            (.cons (hequal.writes_mark hequals (by decide)) ((hvalue.written hvalues).append
              (.one (hmark.writes_mark hsemi (by decide)))))
  | choose condition yes no ihyes ihno =>
      cases h with
      | choose hword hcondition hdo hyes hno hend =>
          simp only [List.forall_mem_cons, List.forall_mem_append] at hts
          obtain ⟨hif, hconditions, hdos, hyess, hnos, hends, -⟩ := hts
          rw [Stmt.words, Stmt.blockWords_eq, Stmt.blockWords_eq]
          exact .cons (hif.writes_name hword (by decide)) ((hcondition.written hconditions).append
            (.cons (hdos.writes_name hdo (by decide))
              ((hyes.written (fun s hs _ => ihyes s hs) hyess).append
                (hno.written (fun s hs _ => ihno s hs)
                  (hends.writes_name hend (by decide)) hnos))))
  | switch subject cases ih =>
      cases h with
      | switch hword hsubject hcases hdefault hbody hend =>
          simp only [List.forall_mem_cons, List.forall_mem_append] at hts
          obtain ⟨hswitch, hsubjects, hcasess, hdefaults, hbodys, hends, -⟩ := hts
          rw [List.forall_mem_append, List.forall_mem_singleton] at ih
          have hvalued := hcases.written
            (fun c hc _ hspans => hspans.written fun s hs _ => ih.1 c hc s hs) hcasess
          have hlast := hbody.written (fun s hs _ => ih.2 s hs) hbodys
          rw [Stmt.words, Case.allWords_eq, List.flatMap_append, List.flatMap_singleton, Case.words,
            Stmt.blockWords_eq, List.append_assoc, List.cons_append]
          exact .cons (hswitch.writes_name hword (by decide)) ((hsubject.written hsubjects).append
            (hvalued.append (.cons (hdefaults.writes_name hdefault (by decide))
              (hlast.append (.one (hends.writes_name hend (by decide)))))))
  | loop condition body ih =>
      cases h with
      | loop hword hcondition hdo hbody hend =>
          simp only [List.forall_mem_cons, List.forall_mem_append] at hts
          obtain ⟨hwhile, hconditions, hdos, hbodys, hends, -⟩ := hts
          rw [Stmt.words, Stmt.blockWords_eq]
          exact .cons (hwhile.writes_name hword (by decide))
            ((hcondition.written hconditions).append (.cons (hdos.writes_name hdo (by decide))
              ((hbody.written (fun s hs _ => ih s hs) hbodys).append
                (.one (hends.writes_name hend (by decide))))))
  | giveBack value =>
      cases h with
      | giveBack hword hvalue hsemi =>
          simp only [List.forall_mem_cons, List.forall_mem_append] at hts
          obtain ⟨hreturn, hvalues, hmark, -⟩ := hts
          exact .cons (hreturn.writes_name hword (by decide)) ((hvalue.written hvalues).append
            (.one (hmark.writes_mark hsemi (by decide))))

theorem StmtSpans.block_written {block : List (Stmt Bare)} {ts : List Token}
    (h : Many beginsStatement StmtSpans block ts) (hts : ∀ t ∈ ts, t.Spelled) :
    Written ts (block.flatMap Stmt.words) :=
  h.written (fun _ _ _ hs => hs.written) hts

/-! ## §3 Items -/

theorem GlobalSpans.written {g : Global Bare} {ts : List Token} (h : GlobalSpans g ts)
    (hts : ∀ t ∈ ts, t.Spelled) : Written ts g.words := by
  cases h with
  | var hword hname htype hvalue =>
      simp only [List.forall_mem_cons, List.forall_mem_append] at hts
      obtain ⟨hvar, -, htypes, hvalues⟩ := hts
      have hkeyword : "VAR".toList ∉ Token.operators := by decide
      exact .cons (hvar.writes_name hword hkeyword) (.cons ⟨hname, rfl⟩
        ((htype.written htypes).append (hvalue.written hvalues)))
  | val hword hname htype hequals hvalue =>
      simp only [List.forall_mem_cons, List.forall_mem_append] at hts
      obtain ⟨hval, -, htypes, hequal, hvalues⟩ := hts
      have hkeyword : "VAL".toList ∉ Token.operators := by decide
      exact .cons (hval.writes_name hword hkeyword) (.cons ⟨hname, rfl⟩
        ((htype.written htypes).append (.cons (hequal.writes_mark hequals (by decide))
          (hvalue.written hvalues))))
  | list hword hname htype hequals hopening hitems hclosing =>
      simp only [List.forall_mem_cons, List.forall_mem_append] at hts
      obtain ⟨hlist, -, htypes, hequal, hopen, hitemss, hclose, -⟩ := hts
      have hkeyword : "LIST".toList ∉ Token.operators := by decide
      have hopen' := hopen.writes_mark hopening (by decide)
      have hvalue : Expr.Spans (.list _ () _) _ := .list hopen' hitems hclosing
      refine .cons (hlist.writes_name hword hkeyword) (.cons ⟨hname, rfl⟩
        ((htype.written htypes).append (.cons (hequal.writes_mark hequals (by decide))
          (hvalue.written ?_))))
      simp only [List.forall_mem_cons, List.forall_mem_append]
      exact ⟨hopen, hitemss, hclose, List.forall_mem_nil _⟩

theorem ParameterSpans.written {x : Parameter} {ts : List Token} (h : ParameterSpans x ts)
    (hts : ∀ t ∈ ts, t.Spelled) : Written ts x.words := by
  cases h with
  | mk hname htype => exact .cons ⟨hname, rfl⟩ (htype.written (List.forall_mem_cons.mp hts).2)

theorem ParametersSpan.written {params : List Parameter} {ts : List Token}
    (h : ParametersSpan params ts) (hts : ∀ t ∈ ts, t.Spelled) :
    Written ts (enumeration Parameter.words params ++ [.mark ")"]) := by
  cases h with
  | none hclosing => exact .one ((hts _ List.mem_cons_self).writes_mark hclosing (by decide))
  | some _ hparams hclosing =>
      rw [List.forall_mem_append, List.forall_mem_singleton] at hts
      exact (hparams.written (fun _ _ _ hx => hx.written) hts.1).append
        (.one (hts.2.writes_mark hclosing (by decide)))

theorem FunctionSpans.written {f : Function Bare} {ts : List Token} (h : FunctionSpans f ts)
    (hts : ∀ t ∈ ts, t.Spelled) : Written ts f.words := by
  cases h with
  | mk hword hname hopening hparams htype hdo hbody hend =>
      simp only [List.forall_mem_cons, List.forall_mem_append] at hts
      obtain ⟨hfun, -, hopen, hparamss, htypes, hdos, hbodys, hends, -⟩ := hts
      exact .cons (hfun.writes_name hword (by decide)) (.cons ⟨hname, rfl⟩
        (.cons (hopen.writes_mark hopening (by decide)) ((hparams.written hparamss).append
          ((htype.written htypes).append (.cons (hdos.writes_name hdo (by decide))
            ((StmtSpans.block_written hbody hbodys).append
              (.one (hends.writes_name hend (by decide)))))))))

theorem ProgramSpans.written {p : Program Bare} {ts : List Token} (h : ProgramSpans p ts)
    (hts : ∀ t ∈ ts, t.Spelled) : Written ts p.words := by
  cases h with
  | mk hglobals hfunctions =>
      rw [List.forall_mem_append] at hts
      refine .append (hglobals.written (fun g _ us hg hus => ?_) hts.1)
        (hfunctions.written (fun f _ _ hf => hf.written) hts.2)
      cases hg with
      | mk hg hsemi =>
          rw [List.forall_mem_append, List.forall_mem_singleton] at hus
          exact (hg.written hus.1).append (.one (hus.2.writes_mark hsemi (by decide)))

end Grammar

end DynImp
