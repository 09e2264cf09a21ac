import DynImp.Proofs.Scope
import DynImp.Typing.Program
import Mathlib.Data.List.Forall2

/-!
# What the checker did

For every function of the checker, all ways in which it can accept what it is given: what
its parts were, what it found out about them, and what it made of them.  What is proved
about checked programs goes by these ways and opens no function of the checker again.

* **Layer A: results** of a sequence of steps.
* **Layer B: expressions**, with the values that are stored in slots.
* **Layer C: statements.**
* **Layer D: items** and programs.
-/

namespace DynImp

namespace Typing

/-! ## §1 Results -/

section Results

variable {ε α β : Type}

theorem bind_eq_ok {x : Except ε α} {f : α → Except ε β} {b : β} :
    (x >>= f) = .ok b ↔ ∃ a, x = .ok a ∧ f a = .ok b := by
  cases x with
  | ok a =>
      constructor
      · exact fun h => ⟨a, rfl, h⟩
      · rintro ⟨_, ⟨⟩, h⟩
        exact h
  | error e =>
      constructor
      · exact fun h => nomatch h
      · rintro ⟨_, ⟨⟩, _⟩

theorem mapError_eq_ok {ε' : Type} {x : Except ε α} {f : ε → ε'} {a : α} :
    x.mapError f = .ok a ↔ x = .ok a := by
  cases x with
  | ok b => constructor <;> intro h <;> cases h <;> rfl
  | error e => constructor <;> intro h <;> cases h

end Results

theorem requireAssignable_ok {target actual : Ty} {offset : Nat} {u : Unit}
    (h : requireAssignable target actual offset = .ok u) : target.accepts actual = true := by
  unfold requireAssignable at h
  split at h
  · assumption
  · cases h

theorem accepts_self (τ : Ty) : τ.accepts τ = true := by
  cases τ <;> simp [Ty.accepts]

theorem resolveVariable_ok {Γ : StaticScope} {offset : Nat} {name : String} {x : Variable}
    (h : resolveVariable Γ offset name = .ok x) : Γ.findVariable name = some x :=
  Scope.lookupVariable_ok.mp (mapError_eq_ok.mp h)

theorem resolveCallee_ok {Γ : StaticScope} {offset : Nat} {name : String} {arity : Nat}
    {f : Callee} (h : resolveCallee Γ offset name arity = .ok f) :
    Γ.findFunction name arity = some f :=
  Scope.lookupFunction_ok.mp (mapError_eq_ok.mp h)

/-! ## §2 Expressions -/

/-- **Inferred expressions.** What an expression is made into, by what its parts are made into. -/
inductive Inferred (Γ : StaticScope) : Expr Bare → Expr Typed → Prop where
  | literal {o s} : Inferred Γ (.literal o () s) (.literal o (.ofScalar s) s)
  | group {o inner inner'} : isBinary inner = true → infer Γ inner = .ok inner' →
      Inferred Γ (.group o () inner) (.group o inner'.type inner')
  | binary {τ op left left' right right'} : infer Γ left = .ok left' → infer Γ right = .ok right' →
      operatorType? op left'.type right'.type = some τ →
      Inferred Γ (.binary () op left right) (.binary τ op left' right')
  | var {o x name} : resolveVariable Γ o name = .ok x →
      Inferred Γ (.var o () () name) (.var o x.type x name)
  | element {o τ x name index index'} : resolveVariable Γ o name = .ok x → x.type = .list τ →
      infer Γ index = .ok index' → index'.type = .integer →
      Inferred Γ (.element o () () name index) (.element o τ x name index')
  | call {o f name args args'} : resolveCallee Γ o name args.length = .ok f →
      inferEach Γ args f.signature.params = .ok args' →
      Inferred Γ (.call o () () name args) (.call o f.signature.result f name args')
  | list {o first first' others others'} : infer Γ first = .ok first' →
      inferEach Γ others (List.replicate others.length first'.type) = .ok others' →
      Inferred Γ (.list o () (first :: others)) (.list o (.list first'.type) (first' :: others'))

section Expressions

variable {Γ : StaticScope}

theorem inferred_of_infer {e : Expr Bare} {e' : Expr Typed} (h : infer Γ e = .ok e') :
    Inferred Γ e e' := by
  cases e with
  | literal o τ s =>
      rw [infer] at h
      cases h
      exact .literal
  | group o τ inner =>
      rw [infer] at h
      split at h
      · next hbinary =>
          obtain ⟨inner', hinner, h⟩ := bind_eq_ok.mp h
          cases h
          exact .group hbinary hinner
      · cases h
  | binary τ op left right =>
      rw [infer] at h
      obtain ⟨left', hleft, h⟩ := bind_eq_ok.mp h
      obtain ⟨right', hright, h⟩ := bind_eq_ok.mp h
      split at h
      · next τ hop =>
          cases h
          exact .binary hleft hright hop
      · cases h
  | var o τ x name =>
      rw [infer] at h
      obtain ⟨found, hfound, h⟩ := bind_eq_ok.mp h
      cases h
      exact .var hfound
  | element o τ x name index =>
      rw [infer] at h
      obtain ⟨found, hfound, h⟩ := bind_eq_ok.mp h
      split at h
      · next element hlist =>
          obtain ⟨index', hindex, h⟩ := bind_eq_ok.mp h
          split at h
          · next hinteger =>
              cases h
              exact .element hfound hlist hindex hinteger
          · cases h
      · cases h
  | call o τ f name args =>
      rw [infer] at h
      obtain ⟨found, hfound, h⟩ := bind_eq_ok.mp h
      obtain ⟨args', hargs, h⟩ := bind_eq_ok.mp h
      cases h
      exact .call hfound hargs
  | list o τ items =>
      cases items with
      | nil =>
          rw [infer] at h
          cases h
      | cons first others =>
          rw [infer] at h
          obtain ⟨first', hfirst, h⟩ := bind_eq_ok.mp h
          obtain ⟨others', hothers, h⟩ := bind_eq_ok.mp h
          cases h
          exact .list hfirst hothers

theorem inferEach_cons_ok {e : Expr Bare} {es : List (Expr Bare)} {τ : Ty} {slots : List Ty}
    {es' : List (Expr Typed)} (h : inferEach Γ (e :: es) (τ :: slots) = .ok es') :
    ∃ e' rest', infer Γ e = .ok e' ∧ τ.accepts e'.type = true ∧
      inferEach Γ es slots = .ok rest' ∧ es' = e' :: rest' := by
  rw [inferEach] at h
  obtain ⟨e', he, h⟩ := bind_eq_ok.mp h
  obtain ⟨u, haccepts, h⟩ := bind_eq_ok.mp h
  obtain ⟨rest', hrest, h⟩ := bind_eq_ok.mp h
  cases h
  exact ⟨e', rest', he, requireAssignable_ok haccepts, hrest, rfl⟩

/-- Expressions that each have a slot: they are made into expressions that fit these slots. -/
theorem inferEach_ok {es : List (Expr Bare)} {slots : List Ty} {es' : List (Expr Typed)}
    (h : inferEach Γ es slots = .ok es') (hlength : es.length = slots.length) :
    List.Forall₂ (fun e e' => infer Γ e = .ok e') es es' ∧
      List.Forall₂ (fun τ e' => τ.accepts e'.type = true) slots es' := by
  induction es generalizing slots es' with
  | nil =>
      obtain rfl := List.length_eq_zero_iff.mp hlength.symm
      rw [inferEach] at h
      cases h
      exact ⟨.nil, .nil⟩
  | cons e es ih =>
      cases slots with
      | nil => cases hlength
      | cons τ slots =>
          obtain ⟨e', rest', he, haccepts, hrest, rfl⟩ := inferEach_cons_ok h
          obtain ⟨hall, hfits⟩ := ih hrest (Nat.succ.inj hlength)
          exact ⟨.cons he hall, .cons haccepts hfits⟩

/-- **Stored values.** What a value for a slot is made into. -/
inductive InferredFor (Γ : StaticScope) : Ty → Expr Bare → Expr Typed → Prop where
  /-- A list literal in a slot for lists. -/
  | list {τ o items items'} : items ≠ [] →
      inferEach Γ items (List.replicate items.length τ) = .ok items' →
      InferredFor Γ (.list τ) (.list o () items) (.list o (.list τ) items')
  | other {target value value'} : (∀ τ o items, target = .list τ → value ≠ .list o () items) →
      infer Γ value = .ok value' → target.accepts value'.type = true →
      InferredFor Γ target value value'

theorem inferred_of_inferFor {target : Ty} {value : Expr Bare} {value' : Expr Typed}
    (h : inferFor Γ target value = .ok value') : InferredFor Γ target value value' := by
  unfold inferFor at h
  split at h
  · next τ o _ items =>
      split at h
      · cases h
      · next hne =>
          obtain ⟨items', hitems, h⟩ := bind_eq_ok.mp h
          cases h
          exact .list (by simpa using hne) hitems
  · next hnot =>
      obtain ⟨value', hvalue, h⟩ := bind_eq_ok.mp h
      obtain ⟨u, haccepts, h⟩ := bind_eq_ok.mp h
      cases h
      refine .other ?_ hvalue (requireAssignable_ok haccepts)
      rintro τ o items rfl rfl
      exact hnot τ o () items rfl rfl

theorem inferCondition_ok {condition : Expr Bare} {condition' : Expr Typed}
    (h : inferCondition Γ condition = .ok condition') :
    infer Γ condition = .ok condition' ∧ condition'.type = .boolean := by
  obtain ⟨inferred, hinfer, h⟩ := bind_eq_ok.mp h
  split at h
  · next hboolean =>
      cases h
      exact ⟨hinfer, hboolean⟩
  · cases h

/-- A receiver is made into what any expression like it is made into. -/
theorem inferReceiver_ok {receiver : Expr Bare} {receiver' : Expr Typed}
    (h : inferReceiver Γ receiver = .ok receiver') :
    infer Γ receiver = .ok receiver' ∧
      ∀ o τ x name, receiver' = .var o τ x name → x.mutable = true := by
  unfold inferReceiver at h
  split at h
  · next o _ _ name =>
      obtain ⟨x, hx, h⟩ := bind_eq_ok.mp h
      split at h
      · next hmutable =>
          cases h
          refine ⟨?_, ?_⟩
          · rw [infer]
            exact bind_eq_ok.mpr ⟨x, hx, rfl⟩
          · rintro _ _ _ _ ⟨⟩
            exact hmutable
      · cases h
  · refine ⟨h, ?_⟩
    rintro o τ x name rfl
    cases inferred_of_infer h
  · cases h

/-- **Initial values.** The type of a new variable and what its value is made into. -/
inductive InferredInitial (Γ : StaticScope) :
    Option Ty → Option (Expr Bare) → Ty → Option (Expr Typed) → Prop where
  | stored {target value value'} : inferFor Γ target value = .ok value' →
      InferredInitial Γ (some target) (some value) target (some value')
  | blank {target} : InferredInitial Γ (some target) none target none
  | inferred {value value'} : infer Γ value = .ok value' →
      InferredInitial Γ none (some value) value'.type (some value')

theorem inferred_of_inferInitial {offset : Nat} {name : String} {declared : Option Ty}
    {value : Option (Expr Bare)} {type : Ty} {value' : Option (Expr Typed)}
    (h : inferInitial Γ offset name declared value = .ok (type, value')) :
    InferredInitial Γ declared value type value' := by
  unfold inferInitial at h
  split at h
  · obtain ⟨stored, hstored, h⟩ := bind_eq_ok.mp h
    cases h
    exact .stored hstored
  · cases h
    exact .blank
  · obtain ⟨inferred, hinferred, h⟩ := bind_eq_ok.mp h
    cases h
    exact .inferred hinferred
  · cases h

end Expressions

/-- **Written types.** A name stands for the type that has it, and no name for no type. -/
inductive Written : Option String → Option Ty → Prop where
  | none : Written none none
  | some {name τ} : Ty.ofName? name = some τ → Written (some name) (some τ)

theorem resolveType_ok {offset : Nat} {name : Option String} {declared : Option Ty}
    (h : resolveType offset name = .ok declared) : Written name declared := by
  unfold resolveType at h
  split at h
  · cases h
    exact .none
  · split at h
    · next hname =>
        cases h
        exact .some hname
    · cases h

theorem Written.getD_eq {name : Option String} {declared : Option Ty} (h : Written name declared)
    (τ : Ty) : declared.getD τ = (name.bind Ty.ofName?).getD τ := by
  cases h with
  | none => rfl
  | some hname => rw [Option.bind_some, hname]

/-! ## §3 Statements -/

/-- **Checked statements.** What a statement is made into, and the environment after it. -/
inductive CheckedStmt (result : Ty) (env : Env) : Stmt Bare → Stmt Typed → Env → Prop where
  | perform {e e'} : infer env.scope e = .ok e' →
      CheckedStmt result env (.perform e) (.perform e') env
  | declare {o name typeName declared value type value'} : resolveType o typeName = .ok declared →
      inferInitial env.scope o name declared value = .ok (type, value') →
      CheckedStmt result env (.declare o () name typeName value)
        (.declare o (env.declare name true type).1 name typeName value')
        (env.declare name true type).2
  | assign {receiver receiver' value value'} : inferReceiver env.scope receiver = .ok receiver' →
      inferFor env.scope receiver'.type value = .ok value' →
      CheckedStmt result env (.assign receiver value) (.assign receiver' value') env
  | choose {condition condition' yes yes' no no' inner inner'} :
      inferCondition env.scope condition = .ok condition' →
      checkBlock result env.enter yes = .ok (yes', inner) →
      checkBlock result (env.leave inner).enter no = .ok (no', inner') →
      CheckedStmt result env (.choose condition yes no) (.choose condition' yes' no')
        ((env.leave inner).leave inner')
  | switch {subject subject' cases cases' env'} : infer env.scope subject = .ok subject' →
      checkCases result subject'.type env cases = .ok (cases', env') →
      CheckedStmt result env (.switch subject cases) (.switch subject' cases') env'
  | loop {condition condition' body body' inner} :
      inferCondition env.scope condition = .ok condition' →
      checkBlock result env.enter body = .ok (body', inner) →
      CheckedStmt result env (.loop condition body) (.loop condition' body') (env.leave inner)
  | giveBack {value value'} : infer env.scope value = .ok value' →
      result.accepts value'.type = true →
      CheckedStmt result env (.giveBack value) (.giveBack value') env

section Statements

variable {result : Ty} {env env' : Env}

theorem checked_of_checkStmt {s : Stmt Bare} {s' : Stmt Typed}
    (h : checkStmt result env s = .ok (s', env')) : CheckedStmt result env s s' env' := by
  cases s with
  | perform e =>
      unfold checkStmt at h
      dsimp only at h
      split at h
      · obtain ⟨e', he, h⟩ := bind_eq_ok.mp h
        cases h
        exact .perform he
      · cases h
  | declare o x name typeName value =>
      rw [checkStmt] at h
      obtain ⟨declared, hdeclared, h⟩ := bind_eq_ok.mp h
      obtain ⟨⟨type, value'⟩, hinitial, h⟩ := bind_eq_ok.mp h
      cases h
      exact .declare hdeclared hinitial
  | assign receiver value =>
      rw [checkStmt] at h
      obtain ⟨receiver', hreceiver, h⟩ := bind_eq_ok.mp h
      obtain ⟨value', hvalue, h⟩ := bind_eq_ok.mp h
      cases h
      exact .assign hreceiver hvalue
  | choose condition yes no =>
      rw [checkStmt] at h
      obtain ⟨condition', hcondition, h⟩ := bind_eq_ok.mp h
      obtain ⟨⟨yes', inner⟩, hyes, h⟩ := bind_eq_ok.mp h
      obtain ⟨⟨no', inner'⟩, hno, h⟩ := bind_eq_ok.mp h
      cases h
      exact .choose hcondition hyes hno
  | switch subject cases =>
      rw [checkStmt] at h
      obtain ⟨subject', hsubject, h⟩ := bind_eq_ok.mp h
      obtain ⟨⟨cases', env₁⟩, hcases, h⟩ := bind_eq_ok.mp h
      cases h
      exact .switch hsubject hcases
  | loop condition body =>
      rw [checkStmt] at h
      obtain ⟨condition', hcondition, h⟩ := bind_eq_ok.mp h
      obtain ⟨⟨body', inner⟩, hbody, h⟩ := bind_eq_ok.mp h
      cases h
      exact .loop hcondition hbody
  | giveBack value =>
      rw [checkStmt] at h
      obtain ⟨value', hvalue, h⟩ := bind_eq_ok.mp h
      obtain ⟨u, haccepts, h⟩ := bind_eq_ok.mp h
      cases h
      exact .giveBack hvalue (requireAssignable_ok haccepts)

theorem checkBlock_cons_ok {s : Stmt Bare} {rest : List (Stmt Bare)} {body' : List (Stmt Typed)}
    (h : checkBlock result env (s :: rest) = .ok (body', env')) :
    ∃ s' env₁ rest', checkStmt result env s = .ok (s', env₁) ∧
      checkBlock result env₁ rest = .ok (rest', env') ∧ body' = s' :: rest' := by
  rw [checkBlock] at h
  obtain ⟨⟨s', env₁⟩, hs, h⟩ := bind_eq_ok.mp h
  obtain ⟨⟨rest', env₂⟩, hrest, h⟩ := bind_eq_ok.mp h
  cases h
  exact ⟨s', env₁, rest', hs, hrest, rfl⟩

/-- What the value of a case is made into; a case without one is the last. -/
inductive CaseValue (Γ : StaticScope) (subject : Ty) (last : Bool) :
    Option (Expr Bare) → Option (Expr Typed) → Prop where
  | some {value value'} : infer Γ value = .ok value' → subject.accepts value'.type = true →
      CaseValue Γ subject last (some value) (some value')
  | none : last = true → CaseValue Γ subject last none none

/-- A case whose value is done with, and the cases after it. -/
private theorem caseRest_ok {subject : Ty} {o : Nat} {value' : Option (Expr Typed)}
    {body : List (Stmt Bare)} {rest : List (Case Bare)} {cases' : List (Case Typed)}
    (h : (checkBlock result env.enter body >>= fun b =>
      checkCases result subject (env.leave b.2) rest >>= fun r =>
        .ok (Case.mk o value' b.1 :: r.1, r.2)) = .ok (cases', env')) :
    ∃ body' inner rest', checkBlock result env.enter body = .ok (body', inner) ∧
      checkCases result subject (env.leave inner) rest = .ok (rest', env') ∧
      cases' = .mk o value' body' :: rest' := by
  obtain ⟨⟨body', inner⟩, hbody, h⟩ := bind_eq_ok.mp h
  obtain ⟨⟨rest', env₁⟩, hrest, h⟩ := bind_eq_ok.mp h
  cases h
  exact ⟨body', inner, rest', hbody, hrest, rfl⟩

theorem checkCases_cons_ok {subject : Ty} {o : Nat} {value : Option (Expr Bare)}
    {body : List (Stmt Bare)} {rest : List (Case Bare)} {cases' : List (Case Typed)}
    (h : checkCases result subject env (.mk o value body :: rest) = .ok (cases', env')) :
    ∃ value' body' inner rest', CaseValue env.scope subject rest.isEmpty value value' ∧
      checkBlock result env.enter body = .ok (body', inner) ∧
      checkCases result subject (env.leave inner) rest = .ok (rest', env') ∧
      cases' = .mk o value' body' :: rest' := by
  unfold checkCases at h
  cases value with
  | some value =>
      obtain ⟨value', hvalue, h⟩ := bind_eq_ok.mp h
      obtain ⟨u, haccepts, h⟩ := bind_eq_ok.mp h
      obtain ⟨body', inner, rest', hbody, hrest, rfl⟩ := caseRest_ok h
      have hcase : CaseValue env.scope subject rest.isEmpty (some value) (some value') :=
        .some hvalue (requireAssignable_ok haccepts)
      exact ⟨some value', body', inner, rest', hcase, hbody, hrest, rfl⟩
  | none =>
      dsimp only at h
      split at h
      · next hlast =>
          obtain ⟨body', inner, rest', hbody, hrest, rfl⟩ := caseRest_ok h
          exact ⟨none, body', inner, rest', .none hlast, hbody, hrest, rfl⟩
      · cases h

end Statements

/-! ## §4 Items -/

theorem checkEach_cons_ok {α β : Type} {check : Env → α → Except TypeError (β × Env)}
    {env env' : Env} {a : α} {rest : List α} {bs : List β}
    (h : checkEach check env (a :: rest) = .ok (bs, env')) :
    ∃ b env₁ rest', check env a = .ok (b, env₁) ∧ checkEach check env₁ rest = .ok (rest', env') ∧
      bs = b :: rest' := by
  rw [checkEach] at h
  obtain ⟨⟨b, env₁⟩, hb, h⟩ := bind_eq_ok.mp h
  obtain ⟨⟨rest', env₂⟩, hrest, h⟩ := bind_eq_ok.mp h
  cases h
  exact ⟨b, env₁, rest', hb, hrest, rfl⟩

/-- What a global is made into: a declared `LIST` is one of elements of the written type. -/
theorem checkGlobal_ok {env env' : Env} {g : Global Bare} {g' : Global Typed}
    (h : checkGlobal env g = .ok (g', env')) :
    ∃ written type value', resolveType g.offset g.typeName = .ok written ∧
      inferInitial env.scope g.offset g.name (if g.isList then written.map .list else written)
        g.value = .ok (type, value') ∧
      g' = ⟨g.offset, (env.declare g.name g.mutable type).1, g.name, g.typeName, g.mutable,
        g.isList, value'⟩ ∧
      env' = (env.declare g.name g.mutable type).2 := by
  obtain ⟨written, hwritten, h⟩ := bind_eq_ok.mp h
  obtain ⟨⟨type, value'⟩, hinitial, h⟩ := bind_eq_ok.mp h
  cases h
  exact ⟨written, type, value', hwritten, hinitial, rfl, rfl⟩

/-- Parameters have the types that are written for them, and any type without. -/
theorem resolveParams_ok {offset : Nat} {params : List Parameter} {types : List Ty}
    (h : resolveParams offset params = .ok types) :
    List.Forall₂ (fun (p : Parameter) τ => ∃ written, Written p.typeName written ∧
      τ = written.getD .any) params types := by
  induction params generalizing types with
  | nil =>
      rw [resolveParams] at h
      cases h
      exact .nil
  | cons p rest ih =>
      rw [resolveParams] at h
      obtain ⟨written, hwritten, h⟩ := bind_eq_ok.mp h
      obtain ⟨types', hrest, h⟩ := bind_eq_ok.mp h
      cases h
      exact .cons ⟨written, resolveType_ok hwritten, rfl⟩ (ih hrest)

/-- What a function is made into: its body is checked behind its own definition. -/
theorem checkFunction_ok {env env' : Env} {f : Function Bare} {f' : Function Typed}
    (h : checkFunction env f = .ok (f', env')) :
    ∃ types written body' inner, resolveParams f.offset f.params = .ok types ∧
      resolveType f.offset f.returnTypeName = .ok written ∧
      checkBlock (written.getD .nil)
        (declareParams (env.define f.name ⟨types, written.getD .nil⟩).2.enter f.params types)
        f.body = .ok (body', inner) ∧
      f' = ⟨f.offset, (env.define f.name ⟨types, written.getD .nil⟩).1, f.name, f.params,
        f.returnTypeName, body'⟩ ∧
      env' = (env.define f.name ⟨types, written.getD .nil⟩).2.leave inner := by
  obtain ⟨types, htypes, h⟩ := bind_eq_ok.mp h
  obtain ⟨written, hwritten, h⟩ := bind_eq_ok.mp h
  obtain ⟨⟨body', inner⟩, hbody, h⟩ := bind_eq_ok.mp h
  cases h
  exact ⟨types, written, body', inner, htypes, hwritten, hbody, rfl, rfl⟩

/-- What a program is made into, and the environments between its parts. -/
theorem check_ok {p : Program Bare} {q : Program Typed} (h : p.check = .ok q) :
    ∃ env env' main, checkEach checkGlobal .initial p.globals = .ok (q.globals, env) ∧
      checkEach checkFunction env p.functions = .ok (q.functions, env') ∧
      env'.scope.findFunction "main" 0 = some main ∧
      Ty.accepts .integer main.signature.result = true := by
  obtain ⟨⟨globals, env⟩, hglobals, h⟩ := bind_eq_ok.mp h
  obtain ⟨⟨functions, env'⟩, hfunctions, h⟩ := bind_eq_ok.mp h
  dsimp only at h
  split at h
  · cases h
  · next main hmain =>
      obtain ⟨u, haccepts, h⟩ := bind_eq_ok.mp h
      cases h
      exact ⟨env, env', main, hglobals, hfunctions, hmain, requireAssignable_ok haccepts⟩

end Typing

end DynImp
