import DynImp.Proofs.Grammar.Trees
import DynImp.Proofs.Run.Lockstep

/-!
# Programs alike

Runs in lockstep where all names are in sight everywhere: nothing is asked of where a name
may be used.  Every tree is alike with itself; so are two programs item by item if they
differ in notes, in places, or behind a `RETURN`, and then their runs are the same.
-/

namespace DynImp

open Eval

variable {ν ν' : Notes}

/-! ## §1 Trees -/

theorem Expr.alike_refl (e : Expr ν) : Expr.Alike Set.univ e e := by
  induction e using Expr.induct_inner with
  | step e ih =>
      have hall : List.Forall₂ (Expr.Alike Set.univ) e.inner e.inner := List.forall₂_same.mpr ih
      cases e with
      | literal => exact .literal
      | group => exact .group (ih _ List.mem_cons_self)
      | binary =>
          exact .binary (ih _ List.mem_cons_self)
            (ih _ (List.mem_cons_of_mem _ List.mem_cons_self))
      | var => exact .var (Set.mem_univ _)
      | element => exact .element (Set.mem_univ _) (ih _ List.mem_cons_self)
      | call => exact .call hall
      | list => exact .list hall

theorem Expr.someAlike_refl (value : Option (Expr ν)) :
    Option.Rel (Expr.Alike Set.univ) value value := by
  cases value with
  | none => exact .none
  | some e => exact .some e.alike_refl

private theorem blockAlike_of_forall {block : List (Stmt ν)}
    (hblock : ∀ s ∈ block, Stmt.Alike Set.univ Set.univ s s Set.univ) :
    BlockAlike Set.univ Set.univ block block := by
  induction block with
  | nil => exact .nil
  | cons s block ih =>
      rw [List.forall_mem_cons] at hblock
      exact .cons hblock.1 (ih hblock.2)

private theorem casesAlike_of_forall {cases : List (Case ν)}
    (hcases : ∀ c ∈ cases, ∀ s ∈ c.body, Stmt.Alike Set.univ Set.univ s s Set.univ) :
    CasesAlike Set.univ Set.univ cases cases := by
  induction cases with
  | nil => exact .nil
  | cons c cases ih =>
      obtain ⟨o, value, body⟩ := c
      rw [List.forall_mem_cons] at hcases
      exact .cons (Expr.someAlike_refl value) (blockAlike_of_forall hcases.1) (ih hcases.2)

theorem Stmt.alike_refl (s : Stmt ν) : Stmt.Alike Set.univ Set.univ s s Set.univ := by
  induction s using Stmt.induct_inner with
  | step s ih =>
      cases s with
      | perform e => exact .perform e.alike_refl
      | declare o x name typeName value =>
          have h : Stmt.Alike Set.univ Set.univ (.declare o x name typeName value)
              (.declare o x name typeName value) (insert name Set.univ) :=
            .declare (Set.mem_univ name) (Expr.someAlike_refl value)
          rwa [Set.insert_eq_of_mem (Set.mem_univ name)] at h
      | assign receiver value => exact .assign receiver.alike_refl value.alike_refl
      | choose condition yes no =>
          rw [Stmt.inner, List.forall_mem_append] at ih
          exact .choose condition.alike_refl (blockAlike_of_forall ih.1)
            (blockAlike_of_forall ih.2)
      | switch subject cases =>
          rw [Stmt.inner, List.forall_mem_flatMap] at ih
          exact .switch subject.alike_refl (casesAlike_of_forall ih)
      | loop condition body => exact .loop condition.alike_refl (blockAlike_of_forall ih)
      | giveBack value => exact .giveBack value.alike_refl

theorem BlockAlike.refl (block : List (Stmt ν)) : BlockAlike Set.univ Set.univ block block :=
  blockAlike_of_forall fun s _ => s.alike_refl

theorem CasesAlike.refl (cases : List (Case ν)) : CasesAlike Set.univ Set.univ cases cases :=
  casesAlike_of_forall fun _ _ s _ => s.alike_refl

theorem Parameter.names_univ (params : List Parameter) :
    Parameter.names Set.univ params = Set.univ := by
  induction params with
  | nil => rfl
  | cons p params ih =>
      rw [Parameter.names, List.foldl_cons, Set.insert_eq_of_mem (Set.mem_univ _)]
      exact ih

/-- **Functions alike**: of the same name, with the same parameters, and with bodies alike. -/
structure Function.Alike (f : Function ν) (f' : Function ν') : Prop where
  name : f.name = f'.name
  params : f.params = f'.params
  body : BlockAlike Set.univ Set.univ f.body f'.body

theorem Function.Alike.callable {f : Function ν} {f' : Function ν'} (h : f.Alike f') :
    Callable.Alike Set.univ Set.univ f.arity (.defined f) (.defined f') := by
  refine .defined h.params rfl (fun _ _ => Set.mem_univ _) ?_
  rw [Parameter.names_univ]
  exact h.body

theorem Function.alike_refl (f : Function ν) : f.Alike f := ⟨rfl, rfl, .refl f.body⟩

theorem GlobalsAlike.refl (gs : List (Global ν)) :
    GlobalsAlike Set.univ Set.univ gs gs Set.univ := by
  induction gs with
  | nil => exact .nil
  | cons g gs ih =>
      refine .cons rfl rfl (Set.mem_univ _) (Expr.someAlike_refl g.value) ?_
      rwa [Set.insert_eq_of_mem (Set.mem_univ _)]

namespace Eval

/-! ## §2 Scopes -/

/-- **Scopes alike.** Variables have the same cells, and functions are alike. -/
structure ScopesAlike (s : RuntimeScope ν) (s' : RuntimeScope ν') : Prop where
  vars : ∀ name, s.findVariable name = s'.findVariable name
  funs : ∀ name arity, Option.Rel (Callable.Alike Set.univ Set.univ arity)
    (s.findFunction name arity) (s'.findFunction name arity)

namespace ScopesAlike

variable {s : RuntimeScope ν} {s' : RuntimeScope ν'}

theorem defineVariable (h : ScopesAlike s s') (name : String) (cell : Cell) :
    ScopesAlike (s.defineVariable name cell) (s'.defineVariable name cell) where
  vars other := by
    rw [Scope.findVariable_defineVariable, Scope.findVariable_defineVariable, h.vars]
  funs := h.funs

theorem defineFunction (h : ScopesAlike s s') (name : String) {arity : Nat} {c : Callable ν}
    {c' : Callable ν'} (hc : Callable.Alike Set.univ Set.univ arity c c') :
    ScopesAlike (s.defineFunction name arity c) (s'.defineFunction name arity c') where
  vars := h.vars
  funs other arity' := by
    rw [Scope.findFunction_defineFunction, Scope.findFunction_defineFunction]
    by_cases heq : other = name ∧ arity' = arity
    · rw [if_pos heq, if_pos heq, heq.2]
      exact .some hc
    · rw [if_neg heq, if_neg heq]
      exact h.funs other arity'

theorem defineAll (h : ScopesAlike s s') {fs : List (Function ν)} {fs' : List (Function ν')}
    (hfs : List.Forall₂ Function.Alike fs fs') :
    ScopesAlike (Eval.defineAll s fs) (Eval.defineAll s' fs') := by
  induction hfs generalizing s s' with
  | nil => exact h
  | @cons f f' _ _ hf _ ih =>
      have harity : f'.arity = f.arity := congrArg List.length hf.params.symm
      refine ih ?_
      change ScopesAlike (s.defineFunction f.name f.arity (.defined f))
        (s'.defineFunction f'.name f'.arity (.defined f'))
      rw [← hf.name, harity]
      exact h.defineFunction f.name hf.callable

theorem builtins : @ScopesAlike ν ν' builtins builtins := by
  have hroot : @ScopesAlike ν ν' .root .root := ⟨fun _ => rfl, fun _ _ => .none⟩
  unfold Eval.builtins
  generalize Builtin.all = bs
  generalize (Scope.root : RuntimeScope ν) = s at hroot
  generalize (Scope.root : RuntimeScope ν') = s' at hroot
  induction bs generalizing s s' with
  | nil => exact hroot
  | cons b bs ih => exact ih _ _ (hroot.defineFunction b.name .builtin)

theorem lookup (h : ScopesAlike s s') (name : String) (arity : Nat) {enter : Prop}
    (henter : enter) : Found Set.univ Set.univ arity enter (s.lookupFunction name arity)
      (s'.lookupFunction name arity) := by
  have hfound := h.funs name arity
  rw [Scope.lookupFunction, Scope.lookupFunction]
  generalize s.findFunction name arity = c at hfound
  generalize s'.findFunction name arity = c' at hfound
  cases hfound with
  | none => exact .unknown
  | some halike => exact .known halike fun _ _ => henter

end ScopesAlike

/-- **Runs of programs alike.** All names count, wherever they stand. -/
def Lockstep.everywhere : Lockstep (.dynamic : Discipline ν) (.dynamic : Discipline ν') where
  free := Set.univ
  home := Set.univ
  scopes _ := ScopesAlike
  find h _ := h.vars _
  resolve h _ _ name arity := h.lookup name arity ⟨h.vars, h.funs⟩
  push h := ⟨h.vars, h.funs⟩
  declare cell h _ := h.defineVariable _ cell

/-- **Calls** of functions alike, from scopes alike, do the same. -/
theorem ScopesAlike.invoke_eq {s : RuntimeScope ν} {s' : RuntimeScope ν'} (hs : ScopesAlike s s')
    {f : Function ν} {f' : Function ν'} (hf : f.Alike f') {args : List Value}
    (hargs : args.length = f.arity) (n : Nat) (w : World) :
    invoke .dynamic n s (.defined f) args w = invoke .dynamic n s' (.defined f') args w := by
  apply Paired.eq_of_same
  have hcallable := hf.callable
  rw [← hargs] at hcallable
  exact (Lockstep.everywhere.kept n).invoke args w hcallable fun _ _ => ⟨hs.vars, hs.funs⟩

end Eval

/-! ## §3 Programs -/

/-- **Programs alike.** -/
structure Program.Alike (p : Program ν) (p' : Program ν') : Prop where
  globals : GlobalsAlike Set.univ Set.univ p.globals p'.globals Set.univ
  functions : List.Forall₂ Function.Alike p.functions p'.functions

/-- **Programs alike do the same.** -/
theorem Program.Alike.run_eq {p : Program ν} {p' : Program ν'} (h : p.Alike p') (n : Nat) :
    p.run n = p'.run n := by
  funext w
  refine Lockstep.everywhere.runUnder_eq .builtins h.globals ?_ n w
  intro s s' hs _
  have hmain : ScopesAlike (defineAll s p.functions) (defineAll s' p'.functions) :=
    ScopesAlike.defineAll hs h.functions
  exact ⟨.everywhere, hmain.lookup "main" 0 ⟨hmain.vars, hmain.funs⟩⟩

end DynImp
