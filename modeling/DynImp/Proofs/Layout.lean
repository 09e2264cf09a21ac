import DynImp.Proofs.Grammar.Prefix
import DynImp.Proofs.Run.Alike
import DynImp.Proofs.Typing.Layout
import DynImp.Source

/-!
# Layout does not matter

Where the tokens of a text stand, and so what stands between them, decides about nothing
but the offsets in errors.  Two texts with the same tokens are the same program, or they
are refused at the same token, or rejected for the same fault; and what they do when they
are run is the same.

* **Layer A: reading** goes by the faces of tokens.
* **Layer B: running** goes by trees without places.
* **Layer C: texts**, through all stages.
-/

namespace DynImp

open Typing Eval

/-! ## §1 Reading -/

namespace Grammar

/-- **Stops.** The reader refuses a list of tokens at the token `k`, or at the end if there is none
there; the error is about that place. -/
structure StopsAt (tokens : List Token) (e : ParseError) (k : Nat) : Prop where
  le : k ≤ tokens.length
  /-- This is what it has not taken. -/
  stops : Grammar.program (tokens.length + 1) tokens = .error ⟨tokens.drop k, e.reason⟩
  offset : e.offset = (tokens[k]?.map Token.offset).getD (Token.endOf tokens)

variable {tokens tokens' : List Token}

theorem StopsAt.of_program {k : Nat} {reason : Reason} (hk : k ≤ tokens.length)
    (h : Grammar.program (tokens.length + 1) tokens = .error ⟨tokens.drop k, reason⟩) :
    StopsAt tokens (Refusal.locate tokens ⟨tokens.drop k, reason⟩) k where
  le := hk
  stops := by rw [h, Refusal.locate_reason]
  offset := by rw [Refusal.locate_offset, List.head?_drop]

/-- **Readings of one program.** Trees that agree without places, or errors for one reason at one
token. -/
inductive SameReading (tokens tokens' : List Token) :
    Except ParseError (Program Bare) → Except ParseError (Program Bare) → Prop where
  | ok {p p'} : p.unplaced = p'.unplaced → SameReading tokens tokens' (.ok p) (.ok p')
  | error {e e' k} : e.reason = e'.reason → StopsAt tokens e k → StopsAt tokens' e' k →
      SameReading tokens tokens' (.error e) (.error e')

/-- Reading goes by the faces of tokens. -/
theorem sameReading_of_faces (h : tokens'.map Token.face = tokens.map Token.face) :
    SameReading tokens tokens' (Program.ofTokens tokens) (Program.ofTokens tokens') := by
  have hlength : tokens'.length = tokens.length := by simpa using congrArg List.length h
  have hread := Reader.Reads.program (k := tokens.length) (n := tokens.length + 1)
    (m := tokens'.length + 1) (by omega) (by omega)
  cases hprogram : Grammar.program (tokens.length + 1) tokens with
  | ok result =>
      obtain ⟨p, rest⟩ := result
      -- A program is all there is, so the two lists resemble each other as a whole.
      obtain rfl := Program.rest_eq_nil hprogram
      have hall : Resembles tokens.length tokens [] tokens' [] :=
        ⟨by simp, by simp [hlength], h, rfl⟩
      obtain ⟨p', hprogram', hp⟩ := hread.again (by rwa [List.append_nil]) hall
      rw [List.append_nil] at hprogram'
      rw [Program.ofTokens, Program.ofTokens, hprogram, hprogram']
      exact .ok hp.symm
  | error r =>
      obtain ⟨rest, reason⟩ := r
      -- What was taken before the refusal is as long in the other list, and has the same faces.
      obtain ⟨taken, -, -, htokens, -⟩ := hread.error hprogram
      dsimp only at htokens
      have hrest : tokens.drop taken.length = rest := by simp [htokens]
      have htaken : tokens.take taken.length = taken := by simp [htokens]
      have hk : taken.length ≤ tokens.length := by simp [htokens]
      have hresembles : Resembles tokens.length taken rest (tokens'.take taken.length)
          (tokens'.drop taken.length) := by
        refine ⟨by rw [← htokens], by rw [List.take_append_drop, hlength], ?_, ?_⟩
        · rw [List.map_take, h, ← List.map_take, htaken]
        · rw [List.map_drop, h, ← List.map_drop, hrest]
      have hprogram' := hread.again_error (by rwa [← htokens]) hresembles
      rw [List.take_append_drop] at hprogram'
      rw [← hrest] at hprogram
      rw [Program.ofTokens, Program.ofTokens, hprogram, hprogram']
      refine .error ?_ (.of_program hk hprogram) (.of_program (hlength ▸ hk) hprogram')
      rw [Refusal.locate_reason, Refusal.locate_reason]

end Grammar

/-! ## §2 Running -/

section Trees

variable {ν : Notes}

theorem Expr.alike_unplaced (e : Expr ν) : Expr.Alike Set.univ e e.unplaced := by
  induction e using Expr.induct_inner with
  | step e ih =>
      have hall : List.Forall₂ (Expr.Alike Set.univ) e.inner (e.inner.map Expr.unplaced) :=
        List.forall₂_map_right_iff.mpr (List.forall₂_same.mpr ih)
      cases e with
      | literal => exact .literal
      | group => exact .group (ih _ List.mem_cons_self)
      | binary =>
          exact .binary (ih _ List.mem_cons_self)
            (ih _ (List.mem_cons_of_mem _ List.mem_cons_self))
      | var => exact .var (Set.mem_univ _)
      | element => exact .element (Set.mem_univ _) (ih _ List.mem_cons_self)
      | call =>
          rw [Expr.unplaced, Expr.allUnplaced_eq]
          exact .call hall
      | list =>
          rw [Expr.unplaced, Expr.allUnplaced_eq]
          exact .list hall

theorem Expr.someAlike_unplaced (value : Option (Expr ν)) :
    Option.Rel (Expr.Alike Set.univ) value (value.map Expr.unplaced) := by
  cases value with
  | none => exact .none
  | some e => exact .some e.alike_unplaced

theorem blockAlike_unplaced {block : List (Stmt ν)}
    (hblock : ∀ s ∈ block, Stmt.Alike Set.univ Set.univ s s.unplaced Set.univ) :
    BlockAlike Set.univ Set.univ block (block.map Stmt.unplaced) := by
  induction block with
  | nil => exact .nil
  | cons s block ih =>
      rw [List.forall_mem_cons] at hblock
      exact .cons hblock.1 (ih hblock.2)

theorem casesAlike_unplaced {cases : List (Case ν)}
    (hcases : ∀ c ∈ cases, ∀ s ∈ c.body, Stmt.Alike Set.univ Set.univ s s.unplaced Set.univ) :
    CasesAlike Set.univ Set.univ cases (cases.map Case.unplaced) := by
  induction cases with
  | nil => exact .nil
  | cons c cases ih =>
      obtain ⟨o, value, body⟩ := c
      rw [List.forall_mem_cons] at hcases
      rw [List.map_cons, Case.unplaced, Stmt.blockUnplaced_eq]
      exact .cons (Expr.someAlike_unplaced value) (blockAlike_unplaced hcases.1) (ih hcases.2)

theorem Stmt.alike_unplaced (s : Stmt ν) : Stmt.Alike Set.univ Set.univ s s.unplaced Set.univ := by
  induction s using Stmt.induct_inner with
  | step s ih =>
      cases s with
      | perform e => exact .perform e.alike_unplaced
      | declare o x name typeName value =>
          have h : Stmt.Alike Set.univ Set.univ (.declare o x name typeName value)
              (Stmt.declare o x name typeName value).unplaced (insert name Set.univ) :=
            .declare (Set.mem_univ name) (Expr.someAlike_unplaced value)
          rwa [Set.insert_eq_of_mem (Set.mem_univ name)] at h
      | assign receiver value => exact .assign receiver.alike_unplaced value.alike_unplaced
      | choose condition yes no =>
          rw [Stmt.inner, List.forall_mem_append] at ih
          rw [Stmt.unplaced, Stmt.blockUnplaced_eq, Stmt.blockUnplaced_eq]
          exact .choose condition.alike_unplaced (blockAlike_unplaced ih.1)
            (blockAlike_unplaced ih.2)
      | switch subject cases =>
          rw [Stmt.inner, List.forall_mem_flatMap] at ih
          rw [Stmt.unplaced, Case.allUnplaced_eq]
          exact .switch subject.alike_unplaced (casesAlike_unplaced ih)
      | loop condition body =>
          rw [Stmt.unplaced, Stmt.blockUnplaced_eq]
          exact .loop condition.alike_unplaced (blockAlike_unplaced ih)
      | giveBack value => exact .giveBack value.alike_unplaced

theorem Function.alike_unplaced (f : Function ν) : f.Alike f.unplaced :=
  ⟨rfl, rfl, blockAlike_unplaced fun s _ => s.alike_unplaced⟩

theorem globalsAlike_unplaced (gs : List (Global ν)) :
    GlobalsAlike Set.univ Set.univ gs (gs.map Global.unplaced) Set.univ := by
  induction gs with
  | nil => exact .nil
  | cons g gs ih =>
      refine .cons rfl rfl (Set.mem_univ _) (Expr.someAlike_unplaced g.value) ?_
      rwa [Set.insert_eq_of_mem (Set.mem_univ _)]

end Trees

namespace Program

variable {ν : Notes}

theorem alike_unplaced (p : Program ν) : p.Alike p.unplaced where
  globals := globalsAlike_unplaced p.globals
  functions := List.forall₂_map_right_iff.mpr (List.forall₂_same.mpr fun f _ => f.alike_unplaced)

/-- A run does not depend on places. -/
theorem run_unplaced (p : Program ν) (n : Nat) : p.unplaced.run n = p.run n :=
  (p.alike_unplaced.run_eq n).symm

/-- Programs that agree without places do the same. -/
theorem run_congr {p p' : Program ν} (h : p.unplaced = p'.unplaced) (n : Nat) :
    p.run n = p'.run n := by
  rw [← p.run_unplaced, h, run_unplaced]

end Program

/-! ## §3 Texts -/

namespace Source

/-- **Same tokens.** Texts that differ in layout alone: the same tokens in the same order, wherever
they stand. -/
def SameTokens (text text' : String) : Prop :=
  ∃ tokens tokens', Token.scan text = .ok tokens ∧ Token.scan text' = .ok tokens' ∧
    tokens.map Token.face = tokens'.map Token.face

instance (text text' : String) : Decidable (SameTokens text text') :=
  match h : Token.scan text, h' : Token.scan text' with
  | .ok tokens, .ok tokens' => decidable_of_iff (tokens.map Token.face = tokens'.map Token.face)
      ⟨fun hfaces => ⟨tokens, tokens', h, h', hfaces⟩, fun ⟨_, _, hok, hok', hfaces⟩ => by
        cases h.symm.trans hok
        cases h'.symm.trans hok'
        exact hfaces⟩
  | .error _, _ => isFalse fun ⟨_, _, hok, _, _⟩ => by cases h.symm.trans hok
  | _, .error _ => isFalse fun ⟨_, _, _, hok, _⟩ => by cases h'.symm.trans hok

/-- **Same outcome** of two texts in all stages. -/
inductive SameOutcome (text text' : String) : Prop where
  /-- Both are refused, for the same reason at the same token. -/
  | refused {tokens tokens' e e' k} : Token.scan text = .ok tokens →
      Token.scan text' = .ok tokens' → parse text = .error (.parse e) →
      parse text' = .error (.parse e') → e.reason = e'.reason →
      Grammar.StopsAt tokens e k → Grammar.StopsAt tokens' e' k → SameOutcome text text'
  /-- Both are programs, the same up to places, and they are rejected for the same fault. -/
  | rejected {p p' e e'} : parse text = .ok p → parse text' = .ok p' → p.unplaced = p'.unplaced →
      check text = .error (.type e) → check text' = .error (.type e') → e.fault = e'.fault →
      SameOutcome text text'
  /-- Both are programs, the same up to places before and after checking, and they do the same: with
  any bound on the depth they end with the same value, the same fault or not within the bound, and
  in the same world, what was printed included. -/
  | accepted {p p' q q'} : parse text = .ok p → parse text' = .ok p' → p.unplaced = p'.unplaced →
      check text = .ok q → check text' = .ok q' → q.unplaced = q'.unplaced →
      (∀ n, q.run n = q'.run n) → (∀ n, run n text = run n text') → SameOutcome text text'

/-- A report is about the run of the checked program. -/
theorem run_congr {text text' : String} {q q' : Program Typed} (h : check text = .ok q)
    (h' : check text' = .ok q') {n : Nat} (hrun : q.run n = q'.run n) :
    run n text = run n text' := by
  rw [run, run, h, h']
  simp only [runText, hrun]

/-- **Layout does not matter.** Texts with the same tokens in the same order, wherever these stand,
are both refused for the same reason at the same token, or they are the same program up to places;
that is rejected twice for the same fault, or it is accepted twice and does the same. -/
theorem sameOutcome_of_sameTokens {text text' : String} (h : SameTokens text text') :
    SameOutcome text text' := by
  obtain ⟨tokens, tokens', hscan, hscan', hfaces⟩ := h
  have hparse : parse text = (Program.ofTokens tokens).mapError .parse := by rw [parse, hscan]
  have hparse' : parse text' = (Program.ofTokens tokens').mapError .parse := by rw [parse, hscan']
  have hreading := Grammar.sameReading_of_faces hfaces.symm
  generalize Program.ofTokens tokens = r at hparse hreading
  generalize Program.ofTokens tokens' = r' at hparse' hreading
  cases hreading with
  | error hreason hstops hstops' =>
      exact .refused hscan hscan' hparse hparse' hreason hstops hstops'
  | @ok p p' hp =>
      -- From here on nothing but the trees counts, which agree without places.
      have hcheck : check text = p.check.mapError .type := by rw [check, hparse]; rfl
      have hcheck' : check text' = p'.check.mapError .type := by rw [check, hparse']; rfl
      have hchecked := check_congr hp
      generalize p.check = r at hcheck hchecked
      generalize p'.check = r' at hcheck' hchecked
      cases hchecked with
      | error hfault => exact .rejected hparse hparse' hp hcheck hcheck' hfault
      | ok hq =>
          have hrun := Program.run_congr hq
          exact .accepted hparse hparse' hp hcheck hcheck' hq hrun fun n =>
            run_congr hcheck hcheck' (hrun n)

/-- A program on one line. -/
def dense : String := "VAR x=1;FUN main():Integer DO print(x/0);RETURN x;END"

/-- The same program, spread over several lines. -/
def spread : String :=
  "VAR x = 1 ;

  FUN main ( ) : Integer DO
    print( x / 0 ) ;
    RETURN x ;
  END"

theorem dense_sameOutcome :
    SameTokens dense spread ∧ dense ≠ spread ∧ SameOutcome dense spread := by
  have htokens : SameTokens dense spread ∧ dense ≠ spread := by
    decide +kernel
  exact ⟨htokens.1, htokens.2, sameOutcome_of_sameTokens htokens.1⟩

end Source

end DynImp
