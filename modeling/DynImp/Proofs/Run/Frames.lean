import DynImp.Eval.Exec
import DynImp.Proofs.Eval.Still
import DynImp.Proofs.Scope
import DynImp.Proofs.Typing.Parts

/-!
# Frames

What is left of the scope when a statement is over.  Only a declaration changes it, and
only in the innermost frame.  So a block leaves nothing but the frame that was opened for
it, and so does the body of a function: with this frame closed, the scope is the one
before.  It does not matter how the statement ends: by itself, by a `RETURN`, or by a
fault, at whatever depth of blocks and calls.

* **Layer A: scopes** that differ in one variable.
* **Layer B: statements** that keep the scope, and blocks that keep the frames around them.
* **Layer C: all ways out.**
-/

namespace DynImp

/-! ## §1 Scopes -/

/-- **Bound in the innermost frame.** Two scopes that differ in what one name is bound to, and in
the innermost frame only. -/
structure Scope.Rebound {V F : Type} (s : Scope V F) (name : String) (v : V) (s' : Scope V F) :
    Prop where
  outer : s'.outer = s.outer
  funs : s'.inner.funs = s.inner.funs
  own : s'.inner.vars.lookup name = some v
  others : ∀ other, other ≠ name → s'.inner.vars.lookup other = s.inner.vars.lookup other

theorem Scope.defineVariable_rebound {V F : Type} (s : Scope V F) (name : String) (v : V) :
    s.Rebound name v (s.defineVariable name v) where
  outer := rfl
  funs := rfl
  own := List.lookup_cons_self
  others other hne := by
    rw [defineVariable, List.lookup_cons, beq_false_of_ne hne]

/-- Other names are found as before, and so are all functions. -/
theorem Scope.Rebound.find {V F : Type} {s s' : Scope V F} {name : String} {v : V}
    (h : s.Rebound name v s') :
    s'.findVariable name = some v ∧
      (∀ other, other ≠ name → s'.findVariable other = s.findVariable other) ∧
      ∀ other arity, s'.findFunction other arity = s.findFunction other arity := by
  refine ⟨?_, ?_, ?_⟩
  · rw [findVariable, frames, List.findSome?_cons, h.own]
  · intro other hne
    rw [findVariable, findVariable, frames, frames, List.findSome?_cons, List.findSome?_cons,
      h.others other hne, h.outer]
  · intro other arity
    rw [findFunction, findFunction, frames, frames, List.findSome?_cons, List.findSome?_cons,
      h.funs, h.outer]

namespace Eval

variable {ν : Notes} {α β : Type}

/-! ## §2 Statements and blocks -/

/-- The scope afterwards is the one before, whatever the outcome. -/
def KeepsScope (x : Run (Machine ν) α) : Prop := ∀ m, (x m).2.scope = m.scope

namespace KeepsScope

theorem pure (a : α) : KeepsScope (Pure.pure a : Run (Machine ν) α) := fun _ => rfl

theorem unfinished : KeepsScope (Run.unfinished : Run (Machine ν) α) := fun _ => rfl

theorem bind {x : Run (Machine ν) α} {f : α → Run (Machine ν) β} (hx : KeepsScope x)
    (hf : ∀ a, KeepsScope (f a)) : KeepsScope (x >>= f) := by
  intro m
  have hm := hx m
  rw [Run.bind_apply]
  -- What comes second starts in the scope that the first leaves, or does not start.
  split
  · next a m' h => rw [h] at hm; exact (hf a m').trans hm
  · next e m' h => rw [h] at hm; exact hm
  · next m' h => rw [h] at hm; exact hm

theorem inWorld (x : RuntimeScope ν → Run World α) : KeepsScope (Machine.inWorld x) :=
  fun _ => rfl

theorem inBlock (x : Run (Machine ν) α) : KeepsScope (Machine.inBlock x) := fun _ => rfl

end KeepsScope

variable {d : Discipline ν}

theorem execLoop_keepsScope (n : Nat) (condition : Expr ν) (body : List (Stmt ν)) :
    KeepsScope (execLoop d n condition body) := by
  -- Every round opens a frame of its own and closes it.
  induction n with
  | zero => exact .unfinished
  | succ n ih =>
      rw [execLoop]
      refine .bind (.inWorld _) fun b => ?_
      cases b with
      | false => exact .pure _
      | true =>
          refine .bind (.inBlock _) fun flow => ?_
          cases flow with
          | next => exact ih
          | returned v => exact .pure _

/-- A statement that is no declaration. -/
theorem exec_keepsScope (n : Nat) {s : Stmt ν} (hs : s.local? = none) :
    KeepsScope (exec d n s) := by
  cases n with
  | zero => exact .unfinished
  | succ n =>
      cases s with
      | declare => cases hs
      | perform | assign | giveBack =>
          rw [exec]
          exact .bind (.inWorld _) fun _ => .pure _
      | choose condition yes no =>
          rw [exec]
          refine .bind (.inWorld _) fun b => ?_
          cases b with
          | true => exact .inBlock _
          | false => exact .inBlock _
      | switch subject cases =>
          rw [exec]
          refine .bind (.inWorld _) fun body => ?_
          cases body with
          | none => exact .pure _
          | some body => exact .inBlock _
      | loop condition body =>
          rw [exec]
          exact execLoop_keepsScope n condition body

/-- A declaration binds its name to a new cell if its initial value is there, and else nothing. -/
theorem exec_declare (n : Nat) (o : Nat) (x : ν.binding) (name : String) (typeName : Option String)
    (value : Option (Expr ν)) (m : Machine ν) :
    (∀ v w, evalInitial d n m.scope value m.world = (.done v, w) →
      (exec d (n + 1) (.declare o x name typeName value) m).1 = .done .next ∧
        (exec d (n + 1) (.declare o x name typeName value) m).2.scope =
          m.scope.defineVariable name ⟨w.cells.size, true⟩) ∧
    ((∀ v, (evalInitial d n m.scope value m.world).1 ≠ .done v) →
      (exec d (n + 1) (.declare o x name typeName value) m).2.scope = m.scope) := by
  obtain ⟨scope, world⟩ := m
  obtain ⟨outcome, w, hinitial⟩ :
      ∃ outcome w, evalInitial d n scope value world = (outcome, w) := ⟨_, _, rfl⟩
  simp only [exec, Run.bind_apply, Machine.inWorld, hinitial]
  cases outcome with
  | done v =>
      refine ⟨?_, fun h => (h v rfl).elim⟩
      rintro _ _ ⟨⟩
      exact ⟨rfl, rfl⟩
  | failed e => exact ⟨nofun, fun _ => rfl⟩
  | unfinished => exact ⟨nofun, fun _ => rfl⟩

/-- The frames around the innermost one are as before, and so are the functions in it. -/
def KeepsOuter (x : Run (Machine ν) α) : Prop :=
  ∀ m, (x m).2.scope.outer = m.scope.outer ∧ (x m).2.scope.inner.funs = m.scope.inner.funs

namespace KeepsOuter

theorem of_keepsScope {x : Run (Machine ν) α} (hx : KeepsScope x) : KeepsOuter x := by
  intro m
  rw [hx m]
  exact ⟨rfl, rfl⟩

theorem bind {x : Run (Machine ν) α} {f : α → Run (Machine ν) β} (hx : KeepsOuter x)
    (hf : ∀ a, KeepsOuter (f a)) : KeepsOuter (x >>= f) := by
  intro m
  have hm := hx m
  rw [Run.bind_apply]
  split
  · next a m' h =>
      rw [h] at hm
      exact ⟨(hf a m').1.trans hm.1, (hf a m').2.trans hm.2⟩
  · next e m' h => rw [h] at hm; exact hm
  · next m' h => rw [h] at hm; exact hm

theorem declare (name : String) (mutable : Bool) (v : Value) :
    KeepsOuter (Machine.declare (ν := ν) name mutable v) := fun _ => ⟨rfl, rfl⟩

/-- A frame that was opened is the only one that is to be closed. -/
theorem pop?_eq {x : Run (Machine ν) α} (hx : KeepsOuter x) (m : Machine ν) :
    (x ⟨m.scope.push, m.world⟩).2.scope.pop? = some m.scope := by
  rw [Scope.pop?, (hx _).1]
  rfl

end KeepsOuter

theorem exec_keepsOuter (n : Nat) (s : Stmt ν) : KeepsOuter (exec d n s) := by
  cases hs : s.local? with
  | none => exact .of_keepsScope (exec_keepsScope n hs)
  | some l =>
      cases n with
      | zero => exact .of_keepsScope .unfinished
      | succ n =>
          cases s with
          | declare =>
              rw [exec]
              refine .bind (.of_keepsScope (.inWorld _)) fun v => ?_
              exact .bind (.declare _ _ _) fun _ => .of_keepsScope (.pure _)
          | _ => cases hs

theorem execAll_keepsOuter (n : Nat) (body : List (Stmt ν)) : KeepsOuter (execAll d n body) := by
  induction n generalizing body with
  | zero => exact .of_keepsScope .unfinished
  | succ n ih =>
      cases body with
      | nil => exact .of_keepsScope (.pure _)
      | cons s rest =>
          rw [execAll]
          refine .bind (exec_keepsOuter n s) fun flow => ?_
          cases flow with
          | next => exact ih rest
          | returned v => exact .of_keepsScope (.pure _)

theorem declareParams_keepsOuter (params : List Parameter) (args : List Value) :
    KeepsOuter (declareParams (ν := ν) params args) := by
  induction params generalizing args with
  | nil => exact .of_keepsScope (.pure _)
  | cons p params ih =>
      cases args with
      | nil => exact .of_keepsScope (.pure _)
      | cons v args => exact .bind (.declare _ _ _) fun _ => ih args

/-! ## §3 All ways out -/

/-- **What a declaration does to the scope**: with an initial value it binds its name to a new cell
in the innermost frame, and without one nothing. -/
def Declares (d : Discipline ν) (n : Nat) (name : String) (value : Option (Expr ν))
    (m m' : Machine ν) : Prop :=
  match evalInitial d n m.scope value m.world with
  | (.done _, w) => m.scope.Rebound name ⟨w.cells.size, true⟩ m'.scope
  | _ => m'.scope = m.scope

/-- **Scopes are left as they were found.** In any scope, and however it ends:

* an expression, and a statement other than a declaration, leaves the very same scope;
* a declaration binds its own name in the innermost frame, and nothing if its value fails;
* a block and the body of a function leave the frame that was opened for them inside the scope
  that was there before, as the only one to close. -/
theorem scope_restored (d : Discipline ν) (n : Nat) (m : Machine ν) :
    (∀ e, (Machine.inWorld (fun scope => eval d n scope e) m).2.scope = m.scope) ∧
    (∀ s : Stmt ν, s.local? = none → (exec d n s m).2.scope = m.scope) ∧
    (∀ o x name typeName value,
      Declares d n name value m (exec d (n + 1) (.declare o x name typeName value) m).2) ∧
    (∀ body, (execAll d n body ⟨m.scope.push, m.world⟩).2.scope.pop? = some m.scope) ∧
    ∀ (f : Function ν) (args : List Value),
      ((do declareParams f.params args; execAll d n f.body : Run (Machine ν) Flow)
        ⟨m.scope.push, m.world⟩).2.scope.pop? = some m.scope := by
  refine ⟨fun e => rfl, fun s hs => exec_keepsScope n hs m, ?declared, ?block, ?body⟩
  case declared =>
    intro o x name typeName value
    obtain ⟨hdone, hother⟩ := exec_declare (d := d) n o x name typeName value m
    unfold Declares
    split
    · next v w hinitial =>
        rw [(hdone v w hinitial).2]
        exact Scope.defineVariable_rebound _ _ _
    · next hnot =>
        refine hother fun v hv => ?_
        exact hnot v _ (Prod.ext hv rfl)
  case block =>
    intro body
    exact (execAll_keepsOuter n body).pop?_eq m
  case body =>
    intro f args
    have hbody := (declareParams_keepsOuter f.params args).bind fun _ =>
      execAll_keepsOuter (d := d) n f.body
    exact hbody.pop?_eq m

/-- A loop that is left by a fault, out of two blocks that hide a variable of the scope. -/
def leftByFault : Stmt Bare :=
  .loop (.literal 0 () (.boolean true))
    [.declare 0 () "x" none (some (.literal 0 () (.integer 2))),
      .choose (.literal 0 () (.boolean true))
        [.declare 0 () "x" none (some (.literal 0 () (.integer 0))),
          .giveBack (.binary () .divide (.literal 0 () (.integer 1)) (.var 0 () () "x"))]
        []]

/-- A scope with one variable, in a frame inside the outermost one. -/
def oneVariable : Machine Bare :=
  ⟨builtins.push.defineVariable "x" ⟨0, true⟩, ⟨.empty, #[.integer 5], .recording⟩⟩

theorem leftByFault_restores :
    leftByFault.local? = none ∧
      (exec .dynamic 20 leftByFault oneVariable).1 = .failed .divisionByZero ∧
      (exec .dynamic 20 leftByFault oneVariable).2.scope = oneVariable.scope :=
  ⟨rfl, by decide +kernel, (scope_restored .dynamic 20 oneVariable).2.1 leftByFault rfl⟩

end Eval

end DynImp
