import DynImp.Proofs.Grammar.Programs
import DynImp.Proofs.Grammar.Slices
import DynImp.Proofs.Grammar.Writing
import DynImp.Proofs.Typing.Shape

/-!
# Trees are faithful to their tokens

What is read from the tokens of a text says all of them, in order and in the right places, and
has the shape that the checker takes for granted.
-/

namespace DynImp

open Grammar

namespace Grammar

/-! ## §1 Places -/

/-- **Places.** A slice of the tokens is a writing of the words, and begins at the byte that is
given for them, if one is. -/
def Placed (ts : List Token) (words : List Word) (offset? : Option Nat) : Prop :=
  ∃ slice, slice <:+: ts ∧ Written slice words ∧
    ∀ offset ∈ offset?, slice.head?.map Token.offset = some offset

end Grammar

theorem Expr.Spans.offset_eq {e : Expr Bare} {ts : List Token} (h : e.Spans ts) :
    ts.head?.map Token.offset = some e.offset := by
  induction e using Expr.induct generalizing ts with
  | binary τ op left right ihl ihr =>
      cases h with
      | binary hleft _ _ _ _ =>
          have hfirst := ihl hleft
          obtain ⟨t, ls, rfl⟩ := List.exists_cons_of_ne_nil hleft.ne_nil
          exact hfirst
  | literal | group | var | element | call | list => cases h <;> rfl

namespace Grammar

theorem StmtSpans.offset_eq {s : Stmt Bare} {ts : List Token} (h : StmtSpans s ts) :
    ∀ offset ∈ s.offset?, ts.head?.map Token.offset = some offset := by
  cases h with
  | declare => rintro _ ⟨⟩; rfl
  | _ => exact fun _ h => nomatch h

theorem StmtSpans.cases_closed {subject : Expr Bare} {cases : List (Case Bare)} {ts : List Token}
    (h : StmtSpans (.switch subject cases) ts) : Case.Closed cases := by
  cases h with
  | switch _ _ hcases _ _ _ =>
      refine ⟨_, _, _, rfl, fun c hc => ?_⟩
      obtain ⟨us, -, hspans⟩ := hcases.slices c hc
      cases hspans
      rfl

theorem GlobalSpans.offset_eq {g : Global Bare} {ts : List Token} (h : GlobalSpans g ts) :
    ts.head?.map Token.offset = some g.offset := by
  cases h <;> rfl

theorem FunctionSpans.offset_eq {f : Function Bare} {ts : List Token} (h : FunctionSpans f ts) :
    ts.head?.map Token.offset = some f.offset := by
  cases h
  rfl

end Grammar

/-! ## §2 Programs -/

namespace Program

/-- **Faithful trees.** The tree says what the tokens say. -/
structure Faithful (p : Program Bare) (ts : List Token) : Prop where
  /-- Written out, the tree is all of the tokens, one after another. -/
  written : Written ts p.words
  /-- Every part is a slice of them and knows where it begins. -/
  exprs : ∀ e ∈ p.exprs, Placed ts e.words (some e.offset)
  stmts : ∀ s ∈ p.stmts, Placed ts s.words s.offset?
  cases : ∀ c ∈ p.cases, Placed ts c.words (some c.offset)
  globals : ∀ g ∈ p.globals, Placed ts g.words (some g.offset)
  functions : ∀ f ∈ p.functions, Placed ts f.words (some f.offset)
  /-- A left operand binds at least as tightly as its operator, a right one more tightly. -/
  levels : ∀ op left right, .binary () op left right ∈ p.exprs →
    op.level.rank ≤ left.rank ∧ op.level.rank < right.rank
  /-- List literals have items. -/
  lists : Expr.NoEmptyList p.exprs
  /-- The last case of every `SWITCH` has no value, and all others have one. -/
  switches : Stmt.ClosedCases p.stmts
  /-- The checker has nothing to say about the shape. -/
  shape : ∀ e, p.check = .error e → e.fault ≠ .emptyList ∧ e.fault ≠ .misplacedDefault

end Program

end DynImp
