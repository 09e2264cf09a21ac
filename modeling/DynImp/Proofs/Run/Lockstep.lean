import DynImp.Proofs.Eval.Still
import DynImp.Proofs.Run.Paired
import DynImp.Proofs.Scope
import Mathlib.Data.List.Forall2
import Mathlib.Data.Set.Insert

/-!
# Runs in lockstep

Two programs of one shape run in lockstep: whatever their trees are annotated with and
wherever the parts stand, and whatever the scopes hold besides the names that are used.
What decides about a run is the shape, the names and the literals, and the cells and
functions that the names have when they are looked up.

* **Layer A: trees** that are alike.
* **Layer B: scopes** that go together, and what they have to be good for.
* **Layer C: steps**, one for each part of the evaluator.
* **Layer D: runs.**
-/

namespace DynImp

open Eval

/-! ## §1 Trees -/

section Trees

variable {ν ν' : Notes}

/-- **Expressions alike**, with variables among the given names. -/
inductive Expr.Alike (names : Set String) : Expr ν → Expr ν' → Prop where
  | literal {o τ o' τ' s} : Alike names (.literal o τ s) (.literal o' τ' s)
  | group {o τ o' τ' inner inner'} : Alike names inner inner' →
      Alike names (.group o τ inner) (.group o' τ' inner')
  | binary {τ τ' op left left' right right'} : Alike names left left' → Alike names right right' →
      Alike names (.binary τ op left right) (.binary τ' op left' right')
  | var {o τ x o' τ' x' name} : name ∈ names →
      Alike names (.var o τ x name) (.var o' τ' x' name)
  | element {o τ x o' τ' x' name index index'} : name ∈ names → Alike names index index' →
      Alike names (.element o τ x name index) (.element o' τ' x' name index')
  | call {o τ f o' τ' f' name args args'} : List.Forall₂ (Alike names) args args' →
      Alike names (.call o τ f name args) (.call o' τ' f' name args')
  | list {o τ o' τ' items items'} : List.Forall₂ (Alike names) items items' →
      Alike names (.list o τ items) (.list o' τ' items')

mutual

/-- **Statements alike**, between the names before them and those after them.  Names that are
declared are among the `free` ones. -/
inductive Stmt.Alike (free : Set String) : Set String → Stmt ν → Stmt ν' → Set String → Prop where
  | perform {names e e'} : Expr.Alike names e e' →
      Stmt.Alike free names (.perform e) (.perform e') names
  | declare {names o x o' x' name typeName typeName' value value'} : name ∈ free →
      Option.Rel (Expr.Alike names) value value' →
      Stmt.Alike free names (.declare o x name typeName value)
        (.declare o' x' name typeName' value') (insert name names)
  | assign {names receiver receiver' value value'} : Expr.Alike names receiver receiver' →
      Expr.Alike names value value' →
      Stmt.Alike free names (.assign receiver value) (.assign receiver' value') names
  | choose {names condition condition' yes yes' no no'} : Expr.Alike names condition condition' →
      BlockAlike free names yes yes' → BlockAlike free names no no' →
      Stmt.Alike free names (.choose condition yes no) (.choose condition' yes' no') names
  | switch {names subject subject' cases cases'} : Expr.Alike names subject subject' →
      CasesAlike free names cases cases' →
      Stmt.Alike free names (.switch subject cases) (.switch subject' cases') names
  | loop {names condition condition' body body'} : Expr.Alike names condition condition' →
      BlockAlike free names body body' →
      Stmt.Alike free names (.loop condition body) (.loop condition' body') names
  | giveBack {names value value'} : Expr.Alike names value value' →
      Stmt.Alike free names (.giveBack value) (.giveBack value') names

/-- **Blocks alike.** -/
inductive BlockAlike (free : Set String) : Set String → List (Stmt ν) → List (Stmt ν') → Prop where
  | nil {names} : BlockAlike free names [] []
  | cons {names names' s s' rest rest'} : Stmt.Alike free names s s' names' →
      BlockAlike free names' rest rest' → BlockAlike free names (s :: rest) (s' :: rest')
  /-- What stands behind a `RETURN` does not matter. -/
  | cut {names value value' rest rest'} : Expr.Alike names value value' →
      BlockAlike free names (.giveBack value :: rest) (.giveBack value' :: rest')

/-- **Cases alike.** -/
inductive CasesAlike (free : Set String) : Set String → List (Case ν) → List (Case ν') → Prop where
  | nil {names} : CasesAlike free names [] []
  | cons {names o o' value value' body body' rest rest'} :
      Option.Rel (Expr.Alike names) value value' → BlockAlike free names body body' →
      CasesAlike free names rest rest' →
      CasesAlike free names (.mk o value body :: rest) (.mk o' value' body' :: rest')

end

/-- The names in a body: those around the function, and its parameters. -/
def Parameter.names (home : Set String) (params : List Parameter) : Set String :=
  params.foldl (fun names p => insert p.name names) home

/-- **Callables alike**, called with some number of arguments.  Bodies are alike, and in them are in
sight the names of `home` and the parameters. -/
inductive Eval.Callable.Alike (free home : Set String) (arity : Nat) :
    Callable ν → Callable ν' → Prop where
  | builtin {b} : Alike free home arity (.builtin b) (.builtin b)
  | defined {f : Function ν} {f' : Function ν'} : f.params = f'.params → f.arity = arity →
      (∀ p ∈ f.params, p.name ∈ free) →
      BlockAlike free (Parameter.names home f.params) f.body f'.body →
      Alike free home arity (.defined f) (.defined f')

/-- **Globals alike**, between the names before them and those after them. -/
inductive GlobalsAlike (free : Set String) :
    Set String → List (Global ν) → List (Global ν') → Set String → Prop where
  | nil {names} : GlobalsAlike free names [] [] names
  | cons {names names' g g' rest rest'} : g.name = g'.name → g.mutable = g'.mutable →
      g.name ∈ free → Option.Rel (Expr.Alike names) g.value g'.value →
      GlobalsAlike free (insert g.name names) rest rest' names' →
      GlobalsAlike free names (g :: rest) (g' :: rest') names'

end Trees

namespace Eval

/-! ## §2 Scopes -/

/-- **Found on both sides**: the same unknown name, or callables that are alike.  If they are
functions of the program, the scopes that their bodies run in go together. -/
inductive Found {ν ν' : Notes} (free home : Set String) (arity : Nat) (enter : Prop) :
    Except ScopeError (Callable ν) → Except ScopeError (Callable ν') → Prop where
  | unknown {e} : Found free home arity enter (.error e) (.error e)
  | known {c c'} : Callable.Alike free home arity c c' → (∀ f, c = .defined f → enter) →
      Found free home arity enter (.ok c) (.ok c')

/-- **Lockstep.** A relation between the scopes of two runs, by the names that are in sight in both,
and the proof that the evaluator keeps to it and needs no more. -/
structure Lockstep {ν ν' : Notes} (d : Discipline ν) (d' : Discipline ν') where
  /-- The names that statements may declare. -/
  free : Set String
  /-- The names that are in sight in all bodies. -/
  home : Set String
  scopes : Set String → RuntimeScope ν → RuntimeScope ν' → Prop
  /-- Names in sight have the same cells. -/
  find : ∀ {names s s' name}, scopes names s s' → name ∈ names →
    s.findVariable name = s'.findVariable name
  /-- Calls enter callables that are alike, and bodies run in scopes that go together. -/
  resolve : ∀ {names s s'}, scopes names s s' → ∀ callee callee' name arity,
    Found free home arity (scopes home (d.home s).push (d'.home s').push)
      (d.resolve s callee name arity) (d'.resolve s' callee' name arity)
  push : ∀ {names s s'}, scopes names s s' → scopes names s.push s'.push
  declare : ∀ {names s s' name} cell, scopes names s s' → name ∈ free →
    scopes (insert name names) (s.defineVariable name cell) (s'.defineVariable name cell)

namespace Lockstep

variable {ν ν' : Notes} {d : Discipline ν} {d' : Discipline ν'} (P : Lockstep d d')

/-! ## §3 Steps -/

/-- What is known when a statement is left: it is left the same way, and with the names that are in
sight then the scopes go together. -/
def Leaves (names : Set String) (flow flow' : Flow) (m : Machine ν) (m' : Machine ν') : Prop :=
  flow = flow' ∧ P.scopes names m.scope m'.scope

/-- **In lockstep** down to a bound on the depth, in all parts of the evaluator. -/
structure Kept (n : Nat) : Prop where
  eval : ∀ {names s s' e e'} w, P.scopes names s s' → Expr.Alike names e e' →
    Paired Same (eval d n s e w) (eval d' n s' e' w)
  condition : ∀ {names s s' e e'} w, P.scopes names s s' → Expr.Alike names e e' →
    Paired Same (evalCondition d n s e w) (evalCondition d' n s' e' w)
  all : ∀ {names s s' es es'} w, P.scopes names s s' → List.Forall₂ (Expr.Alike names) es es' →
    Paired (fun vs vs' _ _ => vs = vs' ∧ vs.length = es.length) (evalAll d n s es w)
      (evalAll d' n s' es' w)
  invoke : ∀ {s s' c c'} args w, Callable.Alike P.free P.home args.length c c' →
    (∀ f, c = .defined f → P.scopes P.home (d.home s).push (d'.home s').push) →
    Paired Same (invoke d n s c args w) (invoke d' n s' c' args w)
  exec : ∀ {names names' t t'} {m : Machine ν} {m' : Machine ν'}, m.world = m'.world →
    P.scopes names m.scope m'.scope → Stmt.Alike P.free names t t' names' →
    Paired (P.Leaves names') (exec d n t m) (exec d' n t' m')
  block : ∀ {names body body'} {m : Machine ν} {m' : Machine ν'}, m.world = m'.world →
    P.scopes names m.scope m'.scope → BlockAlike P.free names body body' →
    Paired Same (execAll d n body m) (execAll d' n body' m')
  loop : ∀ {names condition condition' body body'} {m : Machine ν} {m' : Machine ν'},
    m.world = m'.world → P.scopes names m.scope m'.scope →
    Expr.Alike names condition condition' → BlockAlike P.free names body body' →
    Paired (P.Leaves names) (execLoop d n condition body m) (execLoop d' n condition' body' m')
  initial : ∀ {names s s' value value'} w, P.scopes names s s' →
    Option.Rel (Expr.Alike names) value value' →
    Paired Same (evalInitial d n s value w) (evalInitial d' n s' value' w)
  select : ∀ {names s s' v cases cases'} w, P.scopes names s s' →
    CasesAlike P.free names cases cases' →
    Paired (fun body body' _ _ => Option.Rel (BlockAlike P.free names) body body')
      (select d n s v cases w) (select d' n s' v cases' w)
  assign : ∀ {names s s' receiver receiver' value value'} w, P.scopes names s s' →
    Expr.Alike names receiver receiver' → Expr.Alike names value value' →
    Paired Same (assign d n s receiver value w) (assign d' n s' receiver' value' w)

section Steps

variable {P} {n : Nat} {names : Set String} {s : RuntimeScope ν} {s' : RuntimeScope ν'}

theorem lookupCell_same (hs : P.scopes names s s') {name : String} (hname : name ∈ names)
    (w : World) : Paired Same (lookupCell s name w) (lookupCell s' name w) := by
  have hlookup : s.lookupVariable name = s'.lookupVariable name := by
    rw [Scope.lookupVariable, Scope.lookupVariable, P.find hs hname]
  rw [lookupCell, lookupCell, hlookup]
  exact .same _ w

variable (ih : P.Kept n)

include ih

theorem binary_step {op : BinaryOp} {left right : Expr ν} {left' right' : Expr ν'} (w : World)
    (hs : P.scopes names s s') (hleft : Expr.Alike names left left')
    (hright : Expr.Alike names right right') :
    Paired Same
      ((do
        let a ← Eval.eval d n s left
        let b ← Eval.eval d n s right
        apply op a b : Run World Value) w)
      ((do
        let a ← Eval.eval d' n s' left'
        let b ← Eval.eval d' n s' right'
        apply op a b : Run World Value) w) := by
  refine .bind_same (ih.eval w hs hleft) fun a w₁ => ?_
  refine .bind_same (ih.eval w₁ hs hright) fun b w₂ => ?_
  exact .same _ w₂

theorem eval_step {e : Expr ν} {e' : Expr ν'} (w : World) (hs : P.scopes names s s')
    (he : Expr.Alike names e e') :
    Paired Same (Eval.eval d (n + 1) s e w) (Eval.eval d' (n + 1) s' e' w) := by
  cases he with
  | literal => exact .done rfl rfl
  | group hinner =>
      rw [Eval.eval, Eval.eval]
      exact ih.eval w hs hinner
  | @binary _ _ op _ _ _ _ hleft hright =>
      cases op with
      | and =>
          simp only [Eval.eval]
          -- Whether the right operand runs is decided by the same truth value on both sides.
          refine .bind_same (ih.condition w hs hleft) fun b w₁ => ?_
          cases b with
          | true => exact .bind_same (ih.condition w₁ hs hright) fun b w₂ => .same _ w₂
          | false => exact .same _ w₁
      | or =>
          simp only [Eval.eval]
          refine .bind_same (ih.condition w hs hleft) fun b w₁ => ?_
          cases b with
          | true => exact .same _ w₁
          | false => exact .bind_same (ih.condition w₁ hs hright) fun b w₂ => .same _ w₂
      | less | greater | equal | notEqual | add | subtract | multiply | divide | power =>
          simp only [Eval.eval]
          exact binary_step ih w hs hleft hright
  | var hname =>
      rw [Eval.eval, Eval.eval]
      exact .bind_same (lookupCell_same hs hname w) fun cell w₁ => .same _ w₁
  | element hname hindex =>
      rw [Eval.eval, Eval.eval]
      refine .bind_same (lookupCell_same hs hname w) fun cell w₁ => ?_
      refine .bind_same (.same _ w₁) fun v w₂ => ?_
      refine .bind_same (.same _ w₂) fun id w₃ => ?_
      refine .bind_same (ih.eval w₃ hs hindex) fun i w₄ => ?_
      exact .same _ w₄
  | @call _ _ callee _ _ callee' name args args' hargs =>
      rw [Eval.eval, Eval.eval]
      -- The callable is looked up before the arguments are evaluated, in scopes that go together.
      have hlength : args.length = args'.length := hargs.length_eq
      have hfound := P.resolve hs callee callee' name args.length
      rw [← hlength]
      generalize d.resolve s callee name args.length = r at hfound ⊢
      generalize d'.resolve s' callee' name args.length = r' at hfound ⊢
      cases hfound with
      | unknown => exact .failed rfl
      | known halike henter =>
          refine (ih.all w hs hargs).bind ?_
          rintro vs vs' w₁ w₁' hw ⟨hvs, hcount⟩
          obtain rfl : w₁ = w₁' := hw
          obtain rfl : vs = vs' := hvs
          rw [← hcount] at halike
          exact ih.invoke vs w₁ halike henter
  | list hitems =>
      rw [Eval.eval, Eval.eval]
      refine (ih.all w hs hitems).bind ?_
      rintro vs vs' w₁ w₁' hw ⟨hvs, -⟩
      obtain rfl : w₁ = w₁' := hw
      obtain rfl : vs = vs' := hvs
      exact .same _ w₁

theorem condition_step {e : Expr ν} {e' : Expr ν'} (w : World) (hs : P.scopes names s s')
    (he : Expr.Alike names e e') :
    Paired Same (evalCondition d (n + 1) s e w) (evalCondition d' (n + 1) s' e' w) := by
  rw [evalCondition, evalCondition]
  exact .bind_same (ih.eval w hs he) fun v w₁ => .same _ w₁

theorem all_step {es : List (Expr ν)} {es' : List (Expr ν')} (w : World)
    (hs : P.scopes names s s') (hes : List.Forall₂ (Expr.Alike names) es es') :
    Paired (fun vs vs' _ _ => vs = vs' ∧ vs.length = es.length) (evalAll d (n + 1) s es w)
      (evalAll d' (n + 1) s' es' w) := by
  cases hes with
  | nil =>
      rw [evalAll, evalAll]
      exact .done rfl ⟨rfl, rfl⟩
  | cons he hrest =>
      rw [evalAll, evalAll]
      refine .bind_same (ih.eval w hs he) fun v w₁ => ?_
      refine .map (ih.all w₁ hs hrest) ?_
      rintro vs vs' - - ⟨rfl, hlength⟩
      exact ⟨rfl, congrArg Nat.succ hlength⟩

omit ih in
/-- Parameters get the same cells, and afterwards they are in sight. -/
theorem params_step {params : List Parameter} {args : List Value} {m : Machine ν} {m' : Machine ν'}
    (hw : m.world = m'.world) (hs : P.scopes names m.scope m'.scope)
    (hlength : params.length = args.length) (hfree : ∀ p ∈ params, p.name ∈ P.free) :
    Paired (fun _ _ t t' => P.scopes (Parameter.names names params) t.scope t'.scope)
      (declareParams params args m) (declareParams params args m') := by
  -- Along the parameters; with each of them there is one more name in sight.
  induction params generalizing names args m m' with
  | nil =>
      rw [declareParams, declareParams]
      · exact .done hw hs
      all_goals intros; contradiction
  | cons p params ihp =>
      cases args with
      | nil => cases hlength
      | cons v args =>
          rw [List.forall_mem_cons] at hfree
          rw [declareParams, declareParams]
          refine (Paired.declare hw).bind ?_
          rintro _ _ t t' hw' ⟨cell, hscope, hscope'⟩
          refine ihp hw' ?_ (Nat.succ.inj hlength) hfree.2
          rw [hscope, hscope']
          exact P.declare cell hs hfree.1

theorem invoke_step {c : Callable ν} {c' : Callable ν'} (args : List Value) (w : World)
    (hc : Callable.Alike P.free P.home args.length c c')
    (henter : ∀ f, c = .defined f → P.scopes P.home (d.home s).push (d'.home s').push) :
    Paired Same (Eval.invoke d (n + 1) s c args w) (Eval.invoke d' (n + 1) s' c' args w) := by
  cases hc with
  | builtin =>
      rw [Eval.invoke, Eval.invoke]
      exact .same _ w
  | @defined f f' hparams harity hfree hbody =>
      rw [Eval.invoke, Eval.invoke, ← hparams]
      have hwithin : Paired Same
          (Machine.within (d.home s).push (do declareParams f.params args; execAll d n f.body) w)
          (Machine.within (d'.home s').push
            (do declareParams f.params args; execAll d' n f'.body) w) := by
        refine .within (.bind (params_step rfl (henter f rfl) harity hfree) ?_)
        intro _ _ t t' hw hs
        exact ih.block hw hs hbody
      exact .bind_same hwithin fun flow w₁ => .same _ w₁

omit ih in
/-- What acts on the world alone leaves scopes that go together. -/
private theorem inWorld_step {α α' : Type} {x : RuntimeScope ν → Run World α}
    {x' : RuntimeScope ν' → Run World α'} {m : Machine ν} {m' : Machine ν'} {r : α → α' → Prop}
    (hw : m.world = m'.world) (hs : P.scopes names m.scope m'.scope)
    (hx : Paired (fun a a' _ _ => r a a') (x m.scope m.world) (x' m'.scope m.world)) :
    Paired (fun a a' t t' => r a a' ∧ P.scopes names t.scope t'.scope) (Machine.inWorld x m)
      (Machine.inWorld x' m') := by
  refine .imp (.inWorld hw hx) ?_
  rintro a a' t t' ⟨ha, hscope, hscope'⟩
  exact ⟨ha, hscope ▸ hscope' ▸ hs⟩

private theorem inBlock_step {body : List (Stmt ν)} {body' : List (Stmt ν')} {m : Machine ν}
    {m' : Machine ν'} (hw : m.world = m'.world) (hs : P.scopes names m.scope m'.scope)
    (hbody : BlockAlike P.free names body body') :
    Paired (P.Leaves names) (Machine.inBlock (execAll d n body) m)
      (Machine.inBlock (execAll d' n body') m') := by
  have hrun : Paired Same (execAll d n body ⟨m.scope.push, m.world⟩)
      (execAll d' n body' ⟨m'.scope.push, m'.world⟩) :=
    ih.block hw (P.push hs) hbody
  refine .imp (.inBlock hrun) ?_
  rintro flow flow' t t' ⟨hflow, hscope, hscope'⟩
  exact ⟨hflow, hscope ▸ hscope' ▸ hs⟩

theorem exec_step {names' : Set String} {t : Stmt ν} {t' : Stmt ν'} {m : Machine ν}
    {m' : Machine ν'} (hw : m.world = m'.world) (hs : P.scopes names m.scope m'.scope)
    (ht : Stmt.Alike P.free names t t' names') :
    Paired (P.Leaves names') (Eval.exec d (n + 1) t m) (Eval.exec d' (n + 1) t' m') := by
  cases ht with
  | perform he =>
      rw [Eval.exec, Eval.exec]
      exact .map (inWorld_step hw hs (ih.eval m.world hs he)) fun _ _ _ _ h => ⟨rfl, h.2⟩
  | declare hname hvalue =>
      rw [Eval.exec, Eval.exec]
      refine .bind (inWorld_step hw hs (ih.initial m.world hs hvalue)) ?_
      rintro v v' m₁ m₁' hw₁ ⟨hv, hs₁⟩
      obtain rfl : v = v' := hv
      refine .map (.declare hw₁) ?_
      rintro _ _ m₂ m₂' ⟨cell, hscope, hscope'⟩
      refine ⟨rfl, ?_⟩
      rw [hscope, hscope']
      exact P.declare cell hs₁ hname
  | assign hreceiver hvalue =>
      rw [Eval.exec, Eval.exec]
      exact .map (inWorld_step hw hs (ih.assign m.world hs hreceiver hvalue))
        fun _ _ _ _ h => ⟨rfl, h.2⟩
  | choose hcondition hyes hno =>
      rw [Eval.exec, Eval.exec]
      refine .bind (inWorld_step hw hs (ih.condition m.world hs hcondition)) ?_
      rintro b b' m₁ m₁' hw₁ ⟨hb, hs₁⟩
      obtain rfl : b = b' := hb
      cases b with
      | true => exact inBlock_step ih hw₁ hs₁ hyes
      | false => exact inBlock_step ih hw₁ hs₁ hno
  | switch hsubject hcases =>
      rw [Eval.exec, Eval.exec]
      have hselect := Paired.bind_same (ih.eval m.world hs hsubject) fun v w =>
        ih.select (v := v) w hs hcases
      refine .bind (inWorld_step hw hs hselect) ?_
      rintro body body' m₁ m₁' hw₁ ⟨hbody, hs₁⟩
      -- The case that was selected is the same one, or there is none on both sides.
      cases hbody with
      | none => exact .done hw₁ ⟨rfl, hs₁⟩
      | some hbody => exact inBlock_step ih hw₁ hs₁ hbody
  | loop hcondition hbody =>
      rw [Eval.exec, Eval.exec]
      exact ih.loop hw hs hcondition hbody
  | giveBack hvalue =>
      rw [Eval.exec, Eval.exec]
      refine .map (inWorld_step hw hs (ih.eval m.world hs hvalue)) ?_
      rintro v v' _ _ ⟨hv, hs₁⟩
      exact ⟨congrArg Flow.returned hv, hs₁⟩

omit ih in
/-- A `RETURN` that ends, and not with a fault, returns. -/
theorem giveBack_returns (value : Expr ν) (m : Machine ν) (flow : Flow)
    (h : (Eval.exec d n (.giveBack value) m).1 = .done flow) : ∃ v, flow = .returned v := by
  cases n with
  | zero => cases h
  | succ n =>
      rw [Eval.exec] at h
      obtain ⟨v, -, h⟩ := Run.bind_done h
      cases h
      exact ⟨v, rfl⟩

theorem block_step {body : List (Stmt ν)} {body' : List (Stmt ν')} {m : Machine ν}
    {m' : Machine ν'} (hw : m.world = m'.world) (hs : P.scopes names m.scope m'.scope)
    (hbody : BlockAlike P.free names body body') :
    Paired Same (execAll d (n + 1) body m) (execAll d' (n + 1) body' m') := by
  cases hbody with
  | nil =>
      rw [execAll, execAll]
      exact .done hw rfl
  | cons hhead hrest =>
      rw [execAll, execAll]
      refine .bind (ih.exec hw hs hhead) ?_
      rintro flow _ m₁ m₁' hw₁ ⟨rfl, hs₁⟩
      cases flow with
      | next => exact ih.block hw₁ hs₁ hrest
      | returned v => exact .done hw₁ rfl
  | cut hvalue =>
      rw [execAll, execAll]
      -- The block is left here, so nothing has to be known about the rest of it.
      refine .bind ((ih.exec hw hs (.giveBack hvalue)).knowing (giveBack_returns _ _)) ?_
      rintro flow _ m₁ m₁' hw₁ ⟨⟨rfl, -⟩, v, rfl⟩
      exact .done hw₁ rfl

theorem loop_step {condition : Expr ν} {condition' : Expr ν'} {body : List (Stmt ν)}
    {body' : List (Stmt ν')} {m : Machine ν} {m' : Machine ν'} (hw : m.world = m'.world)
    (hs : P.scopes names m.scope m'.scope) (hcondition : Expr.Alike names condition condition')
    (hbody : BlockAlike P.free names body body') :
    Paired (P.Leaves names) (execLoop d (n + 1) condition body m)
      (execLoop d' (n + 1) condition' body' m') := by
  rw [execLoop, execLoop]
  refine .bind (inWorld_step hw hs (ih.condition m.world hs hcondition)) ?_
  rintro b b' m₁ m₁' hw₁ ⟨hb, hs₁⟩
  obtain rfl : b = b' := hb
  cases b with
  | false => exact .done hw₁ ⟨rfl, hs₁⟩
  | true =>
      refine .bind (inBlock_step ih hw₁ hs₁ hbody) ?_
      rintro flow _ m₂ m₂' hw₂ ⟨rfl, hs₂⟩
      cases flow with
      | next => exact ih.loop hw₂ hs₂ hcondition hbody
      | returned v => exact .done hw₂ ⟨rfl, hs₂⟩

theorem initial_step {value : Option (Expr ν)} {value' : Option (Expr ν')} (w : World)
    (hs : P.scopes names s s') (hvalue : Option.Rel (Expr.Alike names) value value') :
    Paired Same (evalInitial d (n + 1) s value w) (evalInitial d' (n + 1) s' value' w) := by
  cases hvalue with
  | none =>
      rw [evalInitial, evalInitial]
      exact .same _ w
  | some he =>
      rw [evalInitial, evalInitial]
      exact ih.eval w hs he

theorem select_step {v : Value} {cases : List (Case ν)} {cases' : List (Case ν')} (w : World)
    (hs : P.scopes names s s') (hcases : CasesAlike P.free names cases cases') :
    Paired (fun body body' _ _ => Option.Rel (BlockAlike P.free names) body body')
      (Eval.select d (n + 1) s v cases w) (Eval.select d' (n + 1) s' v cases' w) := by
  cases hcases with
  | nil =>
      rw [Eval.select, Eval.select]
      exact .done rfl .none
  | cons hvalue hbody hrest =>
      cases hvalue with
      | none =>
          rw [Eval.select, Eval.select]
          exact .done rfl (.some hbody)
      | some hvalue =>
          rw [Eval.select, Eval.select]
          refine .bind_same (ih.eval w hs hvalue) fun u w₁ => ?_
          refine .bind_same (.same _ w₁) fun same w₂ => ?_
          cases same with
          | true => exact .done rfl (.some hbody)
          | false => exact ih.select w₂ hs hrest

theorem assign_step {receiver value : Expr ν} {receiver' value' : Expr ν'} (w : World)
    (hs : P.scopes names s s') (hreceiver : Expr.Alike names receiver receiver')
    (hvalue : Expr.Alike names value value') :
    Paired Same (Eval.assign d (n + 1) s receiver value w)
      (Eval.assign d' (n + 1) s' receiver' value' w) := by
  cases hreceiver with
  | var hname =>
      rw [Eval.assign, Eval.assign]
      refine .bind_same (lookupCell_same hs hname w) fun cell w₁ => ?_
      cases hmutable : cell.mutable with
      | true => exact .bind_same (ih.eval w₁ hs hvalue) fun v w₂ => .same _ w₂
      | false => exact .same _ w₁
  | element hname hindex =>
      rw [Eval.assign, Eval.assign]
      refine .bind_same (lookupCell_same hs hname w) fun cell w₁ => ?_
      refine .bind_same (.same _ w₁) fun u w₂ => ?_
      refine .bind_same (.same _ w₂) fun id w₃ => ?_
      refine .bind_same (ih.eval w₃ hs hindex) fun i w₄ => ?_
      refine .bind_same (.same _ w₄) fun i w₅ => ?_
      exact .bind_same (ih.eval w₅ hs hvalue) fun v w₆ => .same _ w₆
  | literal | group | binary | call | list =>
      rw [Eval.assign, Eval.assign]
      · exact .failed rfl
      all_goals intros; contradiction

end Steps

/-! ## §4 Runs -/

variable {P}

variable (P) in
/-- **Every bound.** The two runs are in lockstep. -/
theorem kept (n : Nat) : P.Kept n := by
  induction n with
  | zero =>
      -- At the bound both sides give up.
      constructor <;> intros <;> exact .unfinished (by first | rfl | assumption)
  | succ n ih =>
      exact {
        eval := eval_step ih
        condition := condition_step ih
        all := all_step ih
        invoke := invoke_step ih
        exec := exec_step ih
        block := block_step ih
        loop := loop_step ih
        initial := initial_step ih
        select := select_step ih
        assign := assign_step ih }

/-- Globals are declared in the one frame there is, and nothing is opened around it. -/
theorem globals_step {n : Nat} {names names' : Set String} {gs : List (Global ν)}
    {gs' : List (Global ν')} {m : Machine ν} {m' : Machine ν'} (hw : m.world = m'.world)
    (hs : P.scopes names m.scope m'.scope) (hgs : GlobalsAlike P.free names gs gs' names') :
    Paired (fun _ _ t t' => P.scopes names' t.scope t'.scope ∧ t.scope.outer = m.scope.outer)
      (initGlobals d n gs m) (initGlobals d' n gs' m') := by
  induction hgs generalizing m m' with
  | nil =>
      rw [initGlobals, initGlobals]
      exact .done hw ⟨hs, rfl⟩
  | @cons names _ g _ _ _ hname hmutable hfree hvalue _ ihgs =>
      rw [initGlobals, initGlobals, ← hname, ← hmutable]
      have hinitial := (P.kept n).initial m.world hs hvalue
      refine .bind (.inWorld hw hinitial) ?_
      rintro v v' m₁ m₁' hw₁ ⟨hv, hscope₁, hscope₁'⟩
      obtain rfl : v = v' := hv
      refine .bind (.declare hw₁) ?_
      rintro _ _ m₂ m₂' hw₂ ⟨cell, hscope, hscope'⟩
      have hs₂ : P.scopes (insert g.name names) m₂.scope m₂'.scope := by
        rw [hscope, hscope', hscope₁, hscope₁']
        exact P.declare cell hs hfree
      refine .imp (ihgs hw₂ hs₂) ?_
      rintro _ _ t t' ⟨ht, houter⟩
      refine ⟨ht, houter.trans ?_⟩
      rw [hscope, ← hscope₁]
      rfl

/-- The call of `main`. -/
theorem main_step {n : Nat} {s : RuntimeScope ν} {s' : RuntimeScope ν'}
    (hfound : Found P.free P.home 0 (P.scopes P.home (d.home s).push (d'.home s').push)
      (s.lookupFunction "main" 0) (s'.lookupFunction "main" 0)) (w : World) :
    Paired Same
      ((do
        let main ← Run.ofExcept ((s.lookupFunction "main" 0).mapError .undefined)
        invoke d n s main [] : Run World Value) w)
      ((do
        let main ← Run.ofExcept ((s'.lookupFunction "main" 0).mapError .undefined)
        invoke d' n s' main [] : Run World Value) w) := by
  generalize s.lookupFunction "main" 0 = r at hfound ⊢
  generalize s'.lookupFunction "main" 0 = r' at hfound ⊢
  cases hfound with
  | unknown => exact .failed rfl
  | known halike henter => exact (P.kept n).invoke [] w halike henter

/-- **Runs in lockstep**, first through the globals, and then from the scopes in which `main` is
called.  Another relation may take over there, one that refers to these scopes. -/
theorem runUnder_eq {names names' : Set String} {p : Program ν} {p' : Program ν'}
    (hstart : P.scopes names builtins builtins)
    (hglobals : GlobalsAlike P.free names p.globals p'.globals names')
    (hmain : ∀ s s', P.scopes names' s s' → s.outer = [] →
      ∃ Q : Lockstep d d',
        Found Q.free Q.home 0
          (Q.scopes Q.home (d.home (defineAll s p.functions)).push
            (d'.home (defineAll s' p'.functions)).push)
          ((defineAll s p.functions).lookupFunction "main" 0)
          ((defineAll s' p'.functions).lookupFunction "main" 0))
    (n : Nat) (w : World) : p.runUnder d n w = p'.runUnder d' n w := by
  apply Paired.eq_of_same
  refine .within ?_
  let m : Machine ν := ⟨builtins, w⟩
  let m' : Machine ν' := ⟨builtins, w⟩
  have hinit : Paired (fun _ _ t t' => P.scopes names' t.scope t'.scope ∧ t.scope.outer = [])
      (initGlobals d n p.globals m) (initGlobals d' n p'.globals m') :=
    globals_step (m := m) rfl hstart hglobals
  rw [runMain, runMain]
  -- `P` goes through the globals, and is left where `Q` starts.
  refine .bind hinit ?_
  rintro _ _ m m' hw ⟨hs, houter⟩
  obtain ⟨Q, hfound⟩ := hmain m.scope m'.scope hs houter
  exact .imp (.inWorld hw (main_step hfound m.world)) fun _ _ _ _ h => h.1

end Lockstep

end Eval

end DynImp
