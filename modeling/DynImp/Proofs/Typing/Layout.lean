import DynImp.Proofs.Grammar.Relocated
import DynImp.Proofs.Typing.Rejection

/-!
# Checking and places

The checker reads offsets only to put them into errors.  A tree and the same tree at other
places are both accepted, with the same notes at the other places, or both rejected, for the
same fault at the other place.  That there is no `main` is a fault without a place.

* **Layer A: results** of one tree at two places, with one rule for each way in which the steps
  of the checker are put together.
* **Layer B: expressions**, function by function of the checker.
* **Layer C: statements.**
* **Layer D: items** and programs.
-/

namespace DynImp

namespace Typing

@[simp] theorem isBinary_relocated {ν : Notes} (f : Nat → Nat) (e : Expr ν) :
    isBinary (e.relocated f) = isBinary e := by
  cases e <;> rfl

/-! ## §1 Results -/

/-- A relocated error. -/
def TypeError.relocated (f : Nat → Nat) (e : TypeError) : TypeError :=
  match e.fault with
  | .missingMain => e
  | _ => { e with offset := f e.offset }

theorem TypeError.relocated_of_ne {f : Nat → Nat} {e : TypeError} (h : e.fault ≠ .missingMain) :
    e.relocated f = ⟨f e.offset, e.fault⟩ := by
  unfold relocated
  split
  · next heq => exact absurd heq h
  · rfl

theorem TypeError.relocated_of_missingMain {f : Nat → Nat} {e : TypeError}
    (h : e.fault = .missingMain) : e.relocated f = e := by
  rw [relocated, h]

@[simp] theorem TypeError.relocated_fault (f : Nat → Nat) (e : TypeError) :
    (e.relocated f).fault = e.fault := by
  unfold relocated
  split <;> rfl

section Results

variable {α β : Type} {f : Nat → Nat}

/-- **Relocated results.** Both are accepted, and `move` leads from one result to the other, or both
are rejected, for the same fault. -/
inductive Relocates (f : Nat → Nat) (move : α → α) :
    Except TypeError α → Except TypeError α → Prop where
  | ok (a : α) : Relocates f move (.ok a) (.ok (move a))
  | error (e : TypeError) : Relocates f move (.error e) (.error (e.relocated f))

namespace Relocates

variable {move : α → α} {move' : β → β} {x x' : Except TypeError α}

/-- An error about an expression is at the place of the expression. -/
theorem error_at (e : Expr Bare) (fault : Fault) (hfault : fault ≠ .missingMain) :
    Relocates f move (.error ⟨e.offset, fault⟩) (.error ⟨(e.relocated f).offset, fault⟩) := by
  have hmoved : (⟨f e.offset, fault⟩ : TypeError) = TypeError.relocated f ⟨e.offset, fault⟩ := by
    rw [TypeError.relocated_of_ne hfault]
  rw [Expr.offset_relocated, hmoved]
  exact .error _

/-- One step after another.  The second one gets a relocated result. -/
theorem bind_ok {g g' : α → Except TypeError β} (hx : Relocates f move x x')
    (hg : ∀ a, x = .ok a → Relocates f move' (g a) (g' (move a))) :
    Relocates f move' (x >>= g) (x' >>= g') := by
  cases hx with
  | ok a => exact hg a rfl
  | error e => exact .error e

theorem bind {g g' : α → Except TypeError β} (hx : Relocates f move x x')
    (hg : ∀ a, Relocates f move' (g a) (g' (move a))) :
    Relocates f move' (x >>= g) (x' >>= g') :=
  hx.bind_ok fun a _ => hg a

/-- One step after another, where the first also changes the environment, in which there are no
places. -/
theorem bind_env {ε : Type} {x x' : Except TypeError (α × ε)} {g g' : α × ε → Except TypeError β}
    (hx : Relocates f (Prod.map move id) x x')
    (hg : ∀ a env, Relocates f move' (g (a, env)) (g' (move a, env))) :
    Relocates f move' (x >>= g) (x' >>= g') :=
  hx.bind fun (a, env) => hg a env

/-- Another way to report an error. -/
theorem mapError {ε : Type} (x : Except ε α) {g g' : ε → TypeError}
    (hg : ∀ e, g' e = (g e).relocated f) : Relocates f id (x.mapError g) (x.mapError g') := by
  cases x with
  | ok a => exact .ok a
  | error e =>
      rw [Except.mapError, Except.mapError, hg]
      exact .error (g e)

end Relocates

end Results

section Rules

variable {f : Nat → Nat}

theorem requireAssignable_relocates (target actual : Ty) (o : Nat) :
    Relocates f id (requireAssignable target actual o) (requireAssignable target actual (f o)) := by
  unfold requireAssignable
  split
  · exact .ok ()
  · exact .error ⟨o, .notAssignable target actual⟩

theorem resolveVariable_relocates (Γ : StaticScope) (o : Nat) (name : String) :
    Relocates f id (resolveVariable Γ o name) (resolveVariable Γ (f o) name) :=
  .mapError _ fun _ => rfl

theorem resolveCallee_relocates (Γ : StaticScope) (o : Nat) (name : String) (arity : Nat) :
    Relocates f id (resolveCallee Γ o name arity) (resolveCallee Γ (f o) name arity) :=
  .mapError _ fun _ => rfl

theorem resolveType_relocates (o : Nat) (typeName : Option String) :
    Relocates f id (resolveType o typeName) (resolveType (f o) typeName) := by
  cases typeName with
  | none => exact .ok none
  | some name =>
      simp only [resolveType]
      cases Ty.ofName? name with
      | some type => exact .ok (some type)
      | none => exact .error ⟨o, .unknownType name⟩

end Rules

/-! ## §2 Expressions -/

section Expressions

variable {Γ : StaticScope} {f : Nat → Nat}

theorem inferEach_relocates {es : List (Expr Bare)}
    (hes : ∀ e ∈ es, Relocates f (Expr.relocated f) (infer Γ e) (infer Γ (e.relocated f)))
    (slots : List Ty) :
    Relocates f (List.map (Expr.relocated f)) (inferEach Γ es slots)
      (inferEach Γ (es.map (Expr.relocated f)) slots) := by
  induction es generalizing slots with
  | nil =>
      rw [List.map_nil, inferEach]
      exact .ok []
  | cons e es ih =>
      rw [List.forall_mem_cons] at hes
      have hrest : ∀ slots (e : Expr Typed), Relocates f (List.map (Expr.relocated f))
          (inferEach Γ es slots >>= fun es₁ => pure (e :: es₁))
          (inferEach Γ (es.map (Expr.relocated f)) slots >>= fun es₁ =>
            pure (e.relocated f :: es₁)) :=
        fun slots e => (ih hes.2 slots).bind fun es₁ => .ok (e :: es₁)
      rw [List.map_cons, inferEach, inferEach]
      refine hes.1.bind fun e₁ => ?_
      cases slots with
      | nil => exact hrest [] e₁
      | cons slot slots =>
          dsimp only
          rw [Expr.type_relocated, Expr.offset_relocated]
          exact (requireAssignable_relocates ..).bind fun _ => hrest slots e₁

theorem infer_relocates (e : Expr Bare) :
    Relocates f (Expr.relocated f) (infer Γ e) (infer Γ (e.relocated f)) := by
  induction e using Expr.induct_inner with
  | step e ih =>
      cases e with
      | literal o τ s =>
          rw [Expr.relocated, infer, infer]
          exact .ok _
      | group o τ inner =>
          rw [Expr.relocated, infer, infer, isBinary_relocated]
          split
          · refine (ih inner List.mem_cons_self).bind fun inner₁ => ?_
            rw [Expr.type_relocated]
            exact .ok _
          · exact .error _
      | binary τ op left right =>
          rw [Expr.relocated, infer, infer, Expr.offset_relocated]
          refine (ih left List.mem_cons_self).bind fun left₁ => ?_
          refine (ih right (List.mem_cons_of_mem _ List.mem_cons_self)).bind fun right₁ => ?_
          rw [Expr.type_relocated, Expr.type_relocated]
          cases operatorType? op left₁.type right₁.type with
          | some type => exact .ok _
          | none => exact .error _
      | var o τ x name =>
          rw [Expr.relocated, infer, infer]
          exact (resolveVariable_relocates ..).bind fun found => .ok _
      | element o τ x name index =>
          rw [Expr.relocated, infer, infer]
          refine (resolveVariable_relocates ..).bind fun found => ?_
          dsimp only [id]
          cases found.type with
          | list element =>
              rw [Expr.offset_relocated]
              refine (ih index List.mem_cons_self).bind fun index₁ => ?_
              rw [Expr.type_relocated]
              split
              · exact .ok _
              · exact .error _
          | _ => exact .error _
      | call o τ callee name args =>
          rw [Expr.relocated, infer, infer, Expr.allRelocated_eq, List.length_map]
          refine (resolveCallee_relocates ..).bind fun found => ?_
          refine (inferEach_relocates ih _).bind fun args₁ => ?_
          rw [← Expr.allRelocated_eq]
          exact .ok _
      | list o τ items =>
          cases items with
          | nil =>
              rw [Expr.relocated, Expr.allRelocated, infer, infer]
              exact .error _
          | cons first others =>
              rw [Expr.relocated, Expr.allRelocated, infer, infer, Expr.allRelocated_eq,
                List.length_map]
              refine (ih first List.mem_cons_self).bind fun first₁ => ?_
              rw [Expr.type_relocated]
              have hothers := inferEach_relocates fun e he => ih e (List.mem_cons_of_mem _ he)
              refine (hothers _).bind fun others₁ => ?_
              rw [← Expr.allRelocated_eq]
              exact .ok _

theorem inferFor_relocates (target : Ty) (value : Expr Bare) :
    Relocates f (Expr.relocated f) (inferFor Γ target value)
      (inferFor Γ target (value.relocated f)) := by
  have hgeneral : Relocates f (Expr.relocated f)
      (infer Γ value >>= fun e =>
        requireAssignable target e.type value.offset >>= fun _ => pure e)
      (infer Γ (value.relocated f) >>= fun e =>
        requireAssignable target e.type (value.relocated f).offset >>= fun _ => pure e) := by
    refine (infer_relocates value).bind fun e => ?_
    rw [Expr.type_relocated, Expr.offset_relocated]
    exact (requireAssignable_relocates ..).bind fun _ => .ok e
  cases target with
  | list element =>
      cases value with
      | list o τ items =>
          -- The items are stored among the elements, one by one.
          rw [Expr.relocated, inferFor, inferFor, Expr.allRelocated_eq, List.isEmpty_map]
          cases items.isEmpty with
          | true => exact .error _
          | false =>
              rw [List.length_map]
              refine (inferEach_relocates (fun e _ => infer_relocates e) _).bind fun items₁ => ?_
              rw [← Expr.allRelocated_eq]
              exact .ok _
      | _ => exact hgeneral
  | _ => exact hgeneral

theorem inferCondition_relocates (condition : Expr Bare) :
    Relocates f (Expr.relocated f) (inferCondition Γ condition)
      (inferCondition Γ (condition.relocated f)) := by
  refine (infer_relocates condition).bind fun e => ?_
  rw [Expr.type_relocated, Expr.offset_relocated]
  split
  · exact .ok e
  · exact .error _

theorem inferReceiver_relocates (receiver : Expr Bare) :
    Relocates f (Expr.relocated f) (inferReceiver Γ receiver)
      (inferReceiver Γ (receiver.relocated f)) := by
  cases receiver with
  | var o τ x name =>
      refine (resolveVariable_relocates ..).bind fun found => ?_
      dsimp only [id]
      cases found.mutable with
      | true => exact .ok _
      | false => exact .error _
  | element => exact infer_relocates _
  | _ => exact .error_at _ .notAReceiver (by decide)

/-- The type of a variable has no places in it, its initial value may have some. -/
theorem inferInitial_relocates (o : Nat) (name : String) (declared : Option Ty)
    (value : Option (Expr Bare)) :
    Relocates f (Prod.map id (Option.map (Expr.relocated f)))
      (inferInitial Γ o name declared value)
      (inferInitial Γ (f o) name declared (value.map (Expr.relocated f))) := by
  cases declared with
  | some target =>
      cases value with
      | some e => exact (inferFor_relocates target e).bind fun e => .ok (target, some e)
      | none => exact .ok _
  | none =>
      cases value with
      | some e =>
          refine (infer_relocates e).bind fun e => ?_
          rw [Expr.type_relocated]
          exact .ok (e.type, some e)
      | none => exact .error _

end Expressions

/-! ## §3 Statements -/

section Statements

variable {result : Ty} {f : Nat → Nat}

/-- Blocks are checked statement by statement, in the same environments. -/
theorem checkBlock_relocates {block : List (Stmt Bare)}
    (hblock : ∀ s ∈ block, ∀ env, Relocates f (Prod.map (Stmt.relocated f) id)
      (checkStmt result env s) (checkStmt result env (s.relocated f))) (env : Env) :
    Relocates f (Prod.map (List.map (Stmt.relocated f)) id) (checkBlock result env block)
      (checkBlock result env (block.map (Stmt.relocated f))) := by
  induction block generalizing env with
  | nil =>
      rw [List.map_nil, checkBlock]
      exact .ok ([], env)
  | cons s block ih =>
      rw [List.forall_mem_cons] at hblock
      rw [List.map_cons, checkBlock, checkBlock]
      refine (hblock.1 env).bind_env fun s₁ env => ?_
      exact (ih hblock.2 env).bind_env fun block₁ env => .ok (s₁ :: block₁, env)

theorem checkCases_relocates (subject : Ty) {cases : List (Case Bare)}
    (hcases : ∀ c ∈ cases, ∀ s ∈ c.body, ∀ env, Relocates f (Prod.map (Stmt.relocated f) id)
      (checkStmt result env s) (checkStmt result env (s.relocated f))) (env : Env) :
    Relocates f (Prod.map (List.map (Case.relocated f)) id) (checkCases result subject env cases)
      (checkCases result subject env (cases.map (Case.relocated f))) := by
  induction cases generalizing env with
  | nil =>
      rw [List.map_nil, checkCases]
      exact .ok ([], env)
  | cons c cases ih =>
      obtain ⟨o, value, body⟩ := c
      rw [List.forall_mem_cons] at hcases
      have hbodies : ∀ value : Option (Expr Typed),
          Relocates f (Prod.map (List.map (Case.relocated f)) id)
            (checkBlock result env.enter body >>= fun b =>
              checkCases result subject (env.leave b.2) cases >>= fun r =>
                .ok (Case.mk o value b.1 :: r.1, r.2))
            (checkBlock result env.enter (Stmt.blockRelocated f body) >>= fun b =>
              checkCases result subject (env.leave b.2) (cases.map (Case.relocated f)) >>= fun r =>
                .ok (Case.mk (f o) (value.map (Expr.relocated f)) b.1 :: r.1, r.2)) := by
        intro value
        rw [Stmt.blockRelocated_eq]
        refine (checkBlock_relocates hcases.1 env.enter).bind_env fun body₁ inner => ?_
        refine (ih hcases.2 (env.leave inner)).bind_env fun rest₁ env => ?_
        rw [← Stmt.blockRelocated_eq]
        exact .ok (Case.mk o value body₁ :: rest₁, env)
      rw [List.map_cons, Case.relocated]
      cases value with
      | some e =>
          rw [Option.map_some, checkCases, checkCases]
          refine (infer_relocates e).bind fun e₁ => ?_
          rw [Expr.type_relocated, Expr.offset_relocated]
          exact (requireAssignable_relocates ..).bind fun _ => hbodies (some e₁)
      | none =>
          rw [Option.map_none, checkCases, checkCases, List.isEmpty_map]
          split
          · exact hbodies none
          · exact .error _

theorem checkStmt_relocates (s : Stmt Bare) (env : Env) :
    Relocates f (Prod.map (Stmt.relocated f) id) (checkStmt result env s)
      (checkStmt result env (s.relocated f)) := by
  induction s using Stmt.induct_inner generalizing env with
  | step s ih =>
      cases s with
      | perform e =>
          cases e with
          | call =>
              rw [Stmt.relocated, Expr.relocated, checkStmt, checkStmt, ← Expr.relocated]
              exact (infer_relocates _).bind fun e => .ok (Stmt.perform e, env)
          | _ =>
              unfold checkStmt
              exact .error_at _ .notACall (by decide)
      | declare o x name typeName value =>
          rw [Stmt.relocated, checkStmt, checkStmt]
          refine (resolveType_relocates ..).bind fun declared => ?_
          refine (inferInitial_relocates ..).bind ?_
          rintro ⟨type, value₁⟩
          exact .ok (Stmt.declare o _ name typeName value₁, _)
      | assign receiver value =>
          rw [Stmt.relocated, checkStmt, checkStmt]
          refine (inferReceiver_relocates receiver).bind fun receiver₁ => ?_
          rw [Expr.type_relocated]
          exact (inferFor_relocates _ value).bind fun value₁ =>
            .ok (Stmt.assign receiver₁ value₁, env)
      | choose condition yes no =>
          rw [Stmt.relocated, checkStmt, checkStmt, Stmt.blockRelocated_eq, Stmt.blockRelocated_eq]
          rw [Stmt.inner, List.forall_mem_append] at ih
          refine (inferCondition_relocates condition).bind fun condition₁ => ?_
          refine (checkBlock_relocates ih.1 _).bind_env fun yes₁ inner => ?_
          refine (checkBlock_relocates ih.2 _).bind_env fun no₁ inner => ?_
          rw [← Stmt.blockRelocated_eq, ← Stmt.blockRelocated_eq]
          exact .ok (Stmt.choose condition₁ yes₁ no₁, _)
      | switch subject cases =>
          rw [Stmt.relocated, checkStmt, checkStmt, Case.allRelocated_eq]
          rw [Stmt.inner, List.forall_mem_flatMap] at ih
          refine (infer_relocates subject).bind fun subject₁ => ?_
          rw [Expr.type_relocated]
          refine (checkCases_relocates _ ih env).bind_env fun cases₁ env => ?_
          rw [← Case.allRelocated_eq]
          exact .ok (Stmt.switch subject₁ cases₁, env)
      | loop condition body =>
          rw [Stmt.relocated, checkStmt, checkStmt, Stmt.blockRelocated_eq]
          refine (inferCondition_relocates condition).bind fun condition₁ => ?_
          refine (checkBlock_relocates ih _).bind_env fun body₁ inner => ?_
          rw [← Stmt.blockRelocated_eq]
          exact .ok (Stmt.loop condition₁ body₁, _)
      | giveBack value =>
          rw [Stmt.relocated, checkStmt, checkStmt]
          refine (infer_relocates value).bind fun value₁ => ?_
          rw [Expr.type_relocated, Expr.offset_relocated]
          exact (requireAssignable_relocates ..).bind fun _ => .ok (Stmt.giveBack value₁, env)

end Statements

/-! ## §4 Items -/

section Items

variable {f : Nat → Nat}

/-- Items in a row are checked one by one, in the same environments. -/
theorem checkEach_relocates {α β : Type} {check : Env → α → Except TypeError (β × Env)}
    {move : α → α} {move' : β → β}
    (hcheck : ∀ env a, Relocates f (Prod.map move' id) (check env a) (check env (move a)))
    (env : Env) (items : List α) :
    Relocates f (Prod.map (List.map move') id) (checkEach check env items)
      (checkEach check env (items.map move)) := by
  induction items generalizing env with
  | nil => exact .ok ([], env)
  | cons a items ih =>
      rw [List.map_cons, checkEach, checkEach]
      refine (hcheck env a).bind_env fun b env => ?_
      exact (ih env).bind_env fun items₁ env => .ok (b :: items₁, env)

theorem checkGlobal_relocates (env : Env) (g : Global Bare) :
    Relocates f (Prod.map (Global.relocated f) id) (checkGlobal env g)
      (checkGlobal env (g.relocated f)) := by
  rw [checkGlobal, checkGlobal, Global.relocated]
  refine (resolveType_relocates ..).bind fun written => ?_
  refine (inferInitial_relocates ..).bind ?_
  rintro ⟨type, value₁⟩
  exact .ok (Global.mk g.offset _ g.name g.typeName g.mutable g.isList value₁, _)

theorem resolveParams_relocates (o : Nat) (params : List Parameter) :
    Relocates f id (resolveParams o params) (resolveParams (f o) params) := by
  induction params with
  | nil => exact .ok []
  | cons p params ih =>
      rw [resolveParams, resolveParams]
      refine (resolveType_relocates ..).bind fun written => ?_
      exact ih.bind fun types => .ok (written.getD .any :: types)

theorem checkFunction_relocates (env : Env) (x : Function Bare) :
    Relocates f (Prod.map (Function.relocated f) id) (checkFunction env x)
      (checkFunction env (x.relocated f)) := by
  rw [checkFunction, checkFunction, Function.relocated]
  refine (resolveParams_relocates ..).bind fun params => ?_
  refine (resolveType_relocates ..).bind fun written => ?_
  refine (checkBlock_relocates (fun s _ => checkStmt_relocates s) _).bind_env fun body₁ inner => ?_
  exact .ok (Function.mk x.offset _ x.name x.params x.returnTypeName body₁, _)

end Items

/-- The first `main` of a relocated program is that of the program. -/
theorem mainOffset_relocated {fs : List (Function Bare)} {first : Function Bare}
    (h : fs.find? Function.isMain = some first) (f : Nat → Nat) :
    mainOffset (fs.map (Function.relocated f)) = f (mainOffset fs) := by
  have hrelocated : (fs.map (Function.relocated f)).find? Function.isMain =
      some (first.relocated f) := by
    have hsame : Function.isMain ∘ Function.relocated (ν := Bare) f = Function.isMain := rfl
    rw [List.find?_map, hsame, h, Option.map_some]
  rw [mainOffset_eq h, mainOffset_eq hrelocated]
  rfl

/-- **Checking and places.** What the checker says of a tree at other places is what it says of the
tree, at the other places. -/
theorem check_relocates (f : Nat → Nat) (p : Program Bare) :
    Relocates f (Program.relocated f) p.check (p.relocated f).check := by
  rw [Program.check, Program.check, Program.relocated]
  refine (checkEach_relocates checkGlobal_relocates _ _).bind_ok ?_
  rintro ⟨globals₁, env⟩ hglobals
  refine (checkEach_relocates checkFunction_relocates _ _).bind_ok ?_
  rintro ⟨functions₁, env'⟩ hfunctions
  dsimp only [Prod.map_apply, id]
  cases hmain : env'.scope.findFunction "main" 0 with
  | none => exact .error ⟨0, .missingMain⟩
  | some main =>
      obtain ⟨first, -, hfirst, -⟩ := exists_main hglobals hfunctions hmain
      rw [mainOffset_relocated hfirst]
      exact (requireAssignable_relocates ..).bind fun _ =>
        .ok (⟨globals₁, functions₁⟩ : Program Typed)

/-! ## §5 Trees that agree without places -/

/-- **Results up to places.** Both are accepted, with results that look the same, or both are
rejected, for the same fault. -/
inductive UpToPlaces {α β : Type} (view : α → β) :
    Except TypeError α → Except TypeError α → Prop where
  | ok {a a'} : view a = view a' → UpToPlaces view (.ok a) (.ok a')
  | error {e e' : TypeError} : e.fault = e'.fault → UpToPlaces view (.error e) (.error e')

theorem Relocates.upToPlaces {α : Type} {f : Nat → Nat} {move : α → α} {x x' y : Except TypeError α}
    (h : Relocates f move x y) (h' : Relocates f move x' y) : UpToPlaces move x x' := by
  cases h with
  | ok a =>
      generalize hy : Except.ok (move a) = y at h'
      cases h' with
      | ok a' => exact .ok (Except.ok.inj hy)
      | error e' => cases hy
  | error e =>
      generalize hy : Except.error (e.relocated f) = y at h'
      cases h' with
      | ok a' => cases hy
      | error e' =>
          have hfault := congrArg TypeError.fault (Except.error.inj hy)
          rw [TypeError.relocated_fault, TypeError.relocated_fault] at hfault
          exact .error hfault

/-- Trees that agree without places are accepted both, with the same notes, or rejected both, for
the same fault. -/
theorem check_congr {p p' : Program Bare} (h : p.unplaced = p'.unplaced) :
    UpToPlaces Program.unplaced p.check p'.check := by
  have hp := check_relocates (fun _ => 0) p
  have hp' := check_relocates (fun _ => 0) p'
  have hview : Program.unplaced = Program.relocated (ν := Typed) fun _ => 0 :=
    funext Program.unplaced_eq_relocated
  rw [← Program.unplaced_eq_relocated] at hp hp'
  rw [h] at hp
  rw [hview]
  exact hp.upToPlaces hp'

end Typing

end DynImp
