import DynImp.Proofs.Grammar.Trees
import DynImp.Proofs.Run.Contract
import DynImp.Proofs.Run.Linking

/-!
# Where calls come from

Every call in a run is made by a call node of the program, and enters the function that a
table of functions has for the name of the node and the number of its arguments.  The
table is the same throughout, for no statement defines a function: it holds the built-in
functions while the globals are evaluated, and all functions of the program afterwards.

* **Layer A: the contract** of calls, of any program, checked or not.
* **Layer B: steps**, one for each part of the evaluator.
* **Layer C: runs.**
-/

namespace DynImp

namespace Eval

variable {ν : Notes}

/-! ## §1 The contract -/

/-- What a name and a number of arguments call. -/
abbrev Table (ν : Notes) : Type := String → Nat → Option (Callable ν)

/-- **Origin of a call.** A call node among some expressions, for which the table has the function
that is entered. -/
def Event.FromNode (T : Table ν) (es : List (Expr ν)) : Event ν → Prop
  | called callee f _ _ =>
    ∃ o τ name args, .call o τ callee name args ∈ es ∧ T name args.length = some f
  | _ => True

/-- A scope in which functions are found as in the table. -/
def Sees (T : Table ν) (scope : RuntimeScope ν) : Prop :=
  ∀ name arity, scope.findFunction name arity = T name arity

/-- The contract of calls, which asks for nothing and knows nothing else. -/
def callsContract (T : Table ν) (es : List (Expr ν)) : Contract Ignorance ν where
  world _ _ := True
  event _ ev := ev.FromNode T es
  assumed _ := True
  fault _ := True
  event_mono _ h := h

section Contract

variable {T : Table ν} {es : List (Expr ν)}

/-- In what leaves no trail nothing is called. -/
theorem quiet_keeps {σ α : Type} [HasWorld σ] {x : Run σ α} {s : σ} :
    (callsContract T es).Keeps .ignorance x Trail.quiet s fun _ _ _ => True := by
  intro _
  refine ⟨.ignorance, le_refl _, trivial, fun _ h => (List.not_mem_nil h).elim, ?_⟩
  cases (x s).1 <;> trivial

/-- How a computation ends is known without its trail. -/
theorem silent_keeps {σ α : Type} [HasWorld σ] {T' : Table ν} {es' : List (Expr ν)} {x : Run σ α}
    {t : Trail σ ν} {s : σ} {post : Ignorance → α → σ → Prop}
    (h : (callsContract T es).Keeps .ignorance x t s post) :
    (callsContract T' es').Keeps .ignorance x Trail.quiet s post := by
  intro _
  obtain ⟨k, hk, hw, -, hpost⟩ := h fun _ _ => trivial
  exact ⟨k, hk, hw, fun _ h => (List.not_mem_nil h).elim, hpost⟩

/-- A computation on names of its own. -/
theorem within_keeps {α : Type} {scope : RuntimeScope ν} {x : Run (Machine ν) α}
    {t : Trail (Machine ν) ν} {w : World}
    (h : (callsContract T es).Keeps .ignorance x t ⟨scope, w⟩ fun _ _ _ => True) :
    (callsContract T es).Keeps .ignorance (Machine.within scope x) (Trail.within scope t) w
      fun _ _ _ => True := h

/-- A lookup after which something else happens. -/
theorem lookup_keeps {σ α β : Type} [HasWorld σ] {x : Run σ α} {f : α → Run σ β}
    {t : α → Trail σ ν} {s : σ} {post : Ignorance → β → σ → Prop}
    (hf : ∀ a s', (callsContract T es).Keeps .ignorance (f a) (t a) s' post) :
    (callsContract T es).Keeps .ignorance (x >>= f) (Trail.andThen x Trail.quiet t) s post :=
  .bind quiet_keeps fun _ a s' _ _ _ _ => hf a s'

end Contract

/-! ## §2 Steps -/

section Steps

variable (T : Table ν) (es : List (Expr ν))

/-- **Calls come from nodes** down to a bound on the depth, in all parts of the evaluator: those of
expressions and statements whose own expressions are among the given ones. -/
structure CallsKept (n : Nat) : Prop where
  eval : ∀ {w scope} e, Sees T scope → e.parts ⊆ es →
    (callsContract T es).Keeps .ignorance (eval .dynamic n scope e) (evalTrail .dynamic n scope e) w
      fun _ _ _ => True
  condition : ∀ {w scope} e, Sees T scope → e.parts ⊆ es →
    (callsContract T es).Keeps .ignorance (evalCondition .dynamic n scope e)
      (conditionTrail .dynamic n scope e) w fun _ _ _ => True
  all : ∀ {w scope} args, Sees T scope → Expr.allParts args ⊆ es →
    (callsContract T es).Keeps .ignorance (evalAll .dynamic n scope args)
      (allTrail .dynamic n scope args) w fun _ _ _ => True
  invoke : ∀ {w scope} f args, Sees T scope →
    (∀ g, f = .defined g → Stmt.blockExprs g.body ⊆ es) →
    (callsContract T es).Keeps .ignorance (invoke .dynamic n scope f args)
      (invokeTrail .dynamic n scope f args) w fun _ _ _ => True
  exec : ∀ {m} s, Sees T m.scope → s.exprs ⊆ es →
    (callsContract T es).Keeps .ignorance (exec .dynamic n s) (execTrail .dynamic n s) m
      fun _ _ m' => Sees T m'.scope
  block : ∀ {m} body, Sees T m.scope → Stmt.blockExprs body ⊆ es →
    (callsContract T es).Keeps .ignorance (execAll .dynamic n body) (blockTrail .dynamic n body) m
      fun _ _ _ => True
  loop : ∀ {m} condition body, Sees T m.scope → condition.parts ⊆ es →
    Stmt.blockExprs body ⊆ es →
    (callsContract T es).Keeps .ignorance (execLoop .dynamic n condition body)
      (loopTrail .dynamic n condition body) m fun _ _ m' => Sees T m'.scope
  initial : ∀ {w scope} value, Sees T scope → Expr.someParts value ⊆ es →
    (callsContract T es).Keeps .ignorance (evalInitial .dynamic n scope value)
      (initialTrail .dynamic n scope value) w fun _ _ _ => True
  select : ∀ {w scope v} cases, Sees T scope → Stmt.casesExprs cases ⊆ es →
    (callsContract T es).Keeps .ignorance (select .dynamic n scope v cases)
      (selectTrail .dynamic n scope v cases) w
      fun _ body _ => ∀ b, body = some b → Stmt.blockExprs b ⊆ es
  assign : ∀ {w scope} receiver value, Sees T scope → receiver.parts ⊆ es → value.parts ⊆ es →
    (callsContract T es).Keeps .ignorance (assign .dynamic n scope receiver value)
      (assignTrail .dynamic n scope receiver value) w fun _ _ _ => True

variable {T es}

theorem Sees.push {scope : RuntimeScope ν} (h : Sees T scope) : Sees T scope.push := h

theorem Sees.defineVariable {scope : RuntimeScope ν} (h : Sees T scope) (name : String) (c : Cell) :
    Sees T (scope.defineVariable name c) := h

variable {n : Nat} {scope : RuntimeScope ν} {w : World} (ih : CallsKept T es n)

include ih

theorem eval_calls (htable : ∀ name arity g, T name arity = some (.defined g) →
      Stmt.blockExprs g.body ⊆ es) (e : Expr ν) (hs : Sees T scope) (he : e.parts ⊆ es) :
    (callsContract T es).Keeps .ignorance (eval .dynamic (n + 1) scope e)
      (evalTrail .dynamic (n + 1) scope e) w fun _ _ _ => True := by
  -- The last event is the value, which is no call.
  unfold evalTrail
  refine .closing ?_ fun _ _ _ _ => trivial
  cases e with
  | literal => exact quiet_keeps
  | var => exact quiet_keeps
  | group _ _ inner =>
      rw [Eval.eval]
      exact ih.eval inner hs (List.cons_subset.mp he).2
  | binary _ op left right =>
      have hparts := List.append_subset.mp (List.cons_subset.mp he).2
      cases op with
      | and =>
          simp only [Eval.eval]
          refine .bind (ih.condition left hs hparts.1) ?_
          intro _ b _ _ _ _ _
          cases b with
          | true => exact .map (ih.condition right hs hparts.2) fun _ _ _ _ _ => trivial
          | false => exact quiet_keeps
      | or =>
          simp only [Eval.eval]
          refine .bind (ih.condition left hs hparts.1) ?_
          intro _ b _ _ _ _ _
          cases b with
          | true => exact quiet_keeps
          | false => exact .map (ih.condition right hs hparts.2) fun _ _ _ _ _ => trivial
      | less | greater | equal | notEqual | add | subtract | multiply | divide | power =>
          simp only [Eval.eval]
          refine .bind (ih.eval left hs hparts.1) ?_
          intro _ a _ _ _ _ _
          refine .bind (ih.eval right hs hparts.2) ?_
          intro _ b _ _ _ _ _
          exact .opening trivial fun _ => quiet_keeps
  | element _ _ _ name index =>
      rw [Eval.eval]
      refine lookup_keeps fun c _ => lookup_keeps fun v _ => lookup_keeps fun id _ => ?_
      exact .bind_quiet (ih.eval index hs (List.cons_subset.mp he).2) fun _ _ _ _ _ _ _ =>
        quiet_keeps
  | call o τ callee name args =>
      obtain ⟨hcall, hargs⟩ := List.cons_subset.mp he
      rw [Eval.eval]
      refine .bind_still (.ofExcept _) trivial (fun _ _ => trivial) ?_
      intro f hf
      -- The function was looked up in the scope of the caller, which has the table.
      have hfound : T name args.length = some f := by
        rw [← hs]
        exact Scope.lookupFunction_ok.mp (Typing.mapError_eq_ok.mp (Run.ofExcept_done hf))
      refine .bind (ih.all args hs hargs) ?_
      intro _ vs _ _ _ _ _
      refine .opening ⟨o, τ, name, args, hcall, hfound⟩ fun _ => ?_
      refine ih.invoke f vs hs ?_
      rintro g rfl
      exact htable _ _ g hfound
  | list _ _ items =>
      rw [Eval.eval]
      exact .bind_quiet (ih.all items hs (List.cons_subset.mp he).2) fun _ _ _ _ _ _ _ =>
        quiet_keeps

theorem condition_calls (e : Expr ν) (hs : Sees T scope) (he : e.parts ⊆ es) :
    (callsContract T es).Keeps .ignorance (evalCondition .dynamic (n + 1) scope e)
      (conditionTrail .dynamic (n + 1) scope e) w fun _ _ _ => True := by
  rw [evalCondition, conditionTrail]
  exact .bind_quiet (ih.eval e hs he) fun _ _ _ _ _ _ _ => quiet_keeps

theorem all_calls (args : List (Expr ν)) (hs : Sees T scope) (hargs : Expr.allParts args ⊆ es) :
    (callsContract T es).Keeps .ignorance (evalAll .dynamic (n + 1) scope args)
      (allTrail .dynamic (n + 1) scope args) w fun _ _ _ => True := by
  cases args with
  | nil =>
      rw [evalAll, allTrail]
      exact quiet_keeps
  | cons e rest =>
      obtain ⟨he, hrest⟩ := List.append_subset.mp hargs
      rw [evalAll, allTrail]
      refine .bind (ih.eval e hs he) ?_
      intro _ v _ _ _ _ _
      exact .map (ih.all rest hs hrest) fun _ _ _ _ _ => trivial

omit ih in
/-- Parameters are passed in a scope that sees the same functions. -/
theorem params_calls (callee : ν.callee) (index : Nat) (params : List Parameter)
    (args : List Value) {m : Machine ν} (hs : Sees T m.scope) :
    (callsContract T es).Keeps .ignorance (declareParams params args)
      (paramsTrail callee index params args) m fun _ _ m' => Sees T m'.scope := by
  induction params generalizing index args m with
  | nil =>
      rw [declareParams, paramsTrail]
      · exact .pure trivial hs
      all_goals intros; contradiction
  | cons p params ihp =>
      cases args with
      | nil =>
          rw [declareParams, paramsTrail]
          · exact .pure trivial hs
          all_goals intros; contradiction
      | cons v args =>
          rw [declareParams, paramsTrail]
          exact .declare (le_refl _) trivial trivial (ihp _ _ (hs.defineVariable _ _))

theorem invoke_calls (f : Callable ν) (args : List Value) (hs : Sees T scope)
    (hf : ∀ g, f = .defined g → Stmt.blockExprs g.body ⊆ es) :
    (callsContract T es).Keeps .ignorance (invoke .dynamic (n + 1) scope f args)
      (invokeTrail .dynamic (n + 1) scope f args) w fun _ _ _ => True := by
  cases f with
  | builtin b =>
      rw [Eval.invoke, invokeTrail]
      exact quiet_keeps
  | defined f =>
      rw [Eval.invoke, invokeTrail]
      -- The body has a frame of its own, with variables only.
      have hbody := (params_calls f.callee 0 f.params args (m := ⟨scope.push, w⟩) hs.push).bind
        fun _ _ _ _ _ _ hs' => ih.block f.body hs' (hf f rfl)
      exact (within_keeps hbody).bind_quiet fun _ _ _ _ _ _ _ => quiet_keeps

omit ih in
/-- What acts on the world alone leaves the names as they are. -/
private theorem inWorld_calls {α : Type} {m : Machine ν} {x : RuntimeScope ν → Run World α}
    {t : RuntimeScope ν → Trail World ν} {post : α → Prop} (hs : Sees T m.scope)
    (hx : (callsContract T es).Keeps .ignorance (x m.scope) (t m.scope) m.world
      fun _ a _ => post a) :
    (callsContract T es).Keeps .ignorance (Machine.inWorld x) (Trail.inWorld t) m
      fun _ a m' => post a ∧ Sees T m'.scope :=
  .inWorld (.imp hx fun _ _ _ _ hpost => ⟨hpost, hs⟩)

private theorem inBlock_calls {m : Machine ν} (body : List (Stmt ν)) (hs : Sees T m.scope)
    (hbody : Stmt.blockExprs body ⊆ es) :
    (callsContract T es).Keeps .ignorance (Machine.inBlock (execAll .dynamic n body))
      (Trail.inBlock (blockTrail .dynamic n body)) m fun _ _ m' => Sees T m'.scope :=
  .inBlock (.imp (ih.block (m := ⟨m.scope.push, m.world⟩) body hs.push hbody) fun _ _ _ _ _ => hs)

theorem exec_calls {m : Machine ν} (s : Stmt ν) (hs : Sees T m.scope) (hexprs : s.exprs ⊆ es) :
    (callsContract T es).Keeps .ignorance (exec .dynamic (n + 1) s) (execTrail .dynamic (n + 1) s) m
      fun _ _ m' => Sees T m'.scope := by
  unfold execTrail
  refine .closing ?_ fun _ _ _ _ => trivial
  cases s with
  | perform e =>
      rw [Eval.exec]
      exact .map (inWorld_calls hs (ih.eval e hs hexprs)) fun _ _ _ _ h => h.2
  | declare _ _ name _ value =>
      rw [Eval.exec]
      refine .bind (inWorld_calls hs (ih.initial value hs hexprs)) ?_
      rintro _ v m₁ - - - ⟨-, hs₁⟩
      exact .declare (le_refl _) trivial trivial (.pure trivial (hs₁.defineVariable _ _))
  | assign receiver value =>
      obtain ⟨hreceiver, hvalue⟩ := List.append_subset.mp hexprs
      rw [Eval.exec]
      exact .map (inWorld_calls hs (ih.assign receiver value hs hreceiver hvalue))
        fun _ _ _ _ h => h.2
  | choose condition yes no =>
      obtain ⟨hcondition, hblocks⟩ := List.append_subset.mp hexprs
      obtain ⟨hyes, hno⟩ := List.append_subset.mp hblocks
      rw [Eval.exec]
      refine .bind (inWorld_calls hs (ih.condition condition hs hcondition)) ?_
      rintro _ b m₁ - - - ⟨-, hs₁⟩
      cases b with
      | true => exact inBlock_calls ih yes hs₁ hyes
      | false => exact inBlock_calls ih no hs₁ hno
  | switch subject cases =>
      obtain ⟨hsubject, hcases⟩ := List.append_subset.mp hexprs
      rw [Eval.exec]
      have hselect := (ih.eval (w := m.world) subject hs hsubject).bind
        fun _ v w _ _ _ _ => ih.select (v := v) (w := w) cases hs hcases
      refine .bind (inWorld_calls hs hselect) ?_
      rintro _ body m₁ - - - ⟨hbody, hs₁⟩
      cases body with
      | none => exact .pure trivial hs₁
      | some body => exact inBlock_calls ih body hs₁ (hbody body rfl)
  | loop condition body =>
      obtain ⟨hcondition, hbody⟩ := List.append_subset.mp hexprs
      rw [Eval.exec]
      exact ih.loop condition body hs hcondition hbody
  | giveBack value =>
      rw [Eval.exec]
      exact .map (inWorld_calls hs (ih.eval value hs hexprs)) fun _ _ _ _ h => h.2

theorem block_calls {m : Machine ν} (body : List (Stmt ν)) (hs : Sees T m.scope)
    (hbody : Stmt.blockExprs body ⊆ es) :
    (callsContract T es).Keeps .ignorance (execAll .dynamic (n + 1) body)
      (blockTrail .dynamic (n + 1) body) m fun _ _ _ => True := by
  cases body with
  | nil =>
      rw [execAll, blockTrail]
      exact quiet_keeps
  | cons s rest =>
      obtain ⟨hhead, hrest⟩ := List.append_subset.mp hbody
      rw [execAll, blockTrail]
      refine .bind (ih.exec s hs hhead) ?_
      intro _ flow m₁ _ _ _ hs₁
      cases flow with
      | next => exact ih.block rest hs₁ hrest
      | returned v => exact quiet_keeps

theorem loop_calls {m : Machine ν} (condition : Expr ν) (body : List (Stmt ν))
    (hs : Sees T m.scope) (hcondition : condition.parts ⊆ es)
    (hbody : Stmt.blockExprs body ⊆ es) :
    (callsContract T es).Keeps .ignorance (execLoop .dynamic (n + 1) condition body)
      (loopTrail .dynamic (n + 1) condition body) m fun _ _ m' => Sees T m'.scope := by
  rw [execLoop, loopTrail]
  refine .bind (inWorld_calls hs (ih.condition condition hs hcondition)) ?_
  rintro _ b m₁ - - - ⟨-, hs₁⟩
  cases b with
  | false => exact .pure trivial hs₁
  | true =>
      refine .bind (inBlock_calls ih body hs₁ hbody) ?_
      intro _ flow m₂ _ _ _ hs₂
      cases flow with
      | next => exact ih.loop condition body hs₂ hcondition hbody
      | returned v => exact .pure trivial hs₂

theorem initial_calls (value : Option (Expr ν)) (hs : Sees T scope)
    (hvalue : Expr.someParts value ⊆ es) :
    (callsContract T es).Keeps .ignorance (evalInitial .dynamic (n + 1) scope value)
      (initialTrail .dynamic (n + 1) scope value) w fun _ _ _ => True := by
  cases value with
  | none =>
      rw [evalInitial, initialTrail]
      exact quiet_keeps
  | some e =>
      rw [evalInitial, initialTrail]
      exact ih.eval e hs hvalue

theorem select_calls {v : Value} (cases : List (Case ν)) (hs : Sees T scope)
    (hcases : Stmt.casesExprs cases ⊆ es) :
    (callsContract T es).Keeps .ignorance (select .dynamic (n + 1) scope v cases)
      (selectTrail .dynamic (n + 1) scope v cases) w
      fun _ body _ => ∀ b, body = some b → Stmt.blockExprs b ⊆ es := by
  rcases cases with _ | ⟨⟨offset, _ | value, body⟩, rest⟩
  · rw [Eval.select, selectTrail]
    exact .pure trivial fun _ h => nomatch h
  · obtain ⟨hbody, -⟩ := List.append_subset.mp (List.append_subset.mp hcases).2
    rw [Eval.select, selectTrail]
    exact .pure trivial fun _ h => by cases h; exact hbody
  · obtain ⟨hvalue, hblocks⟩ := List.append_subset.mp hcases
    obtain ⟨hbody, hrest⟩ := List.append_subset.mp hblocks
    rw [Eval.select, selectTrail]
    refine .bind (ih.eval value hs hvalue) ?_
    intro _ u _ _ _ _ _
    refine lookup_keeps fun same _ => ?_
    cases same with
    | true => exact .pure trivial fun _ h => by cases h; exact hbody
    | false => exact ih.select rest hs hrest

theorem assign_calls (receiver value : Expr ν) (hs : Sees T scope) (hreceiver : receiver.parts ⊆ es)
    (hvalue : value.parts ⊆ es) :
    (callsContract T es).Keeps .ignorance (assign .dynamic (n + 1) scope receiver value)
      (assignTrail .dynamic (n + 1) scope receiver value) w fun _ _ _ => True := by
  cases receiver with
  | var _ _ _ name =>
      rw [Eval.assign, assignTrail]
      refine lookup_keeps fun c _ => ?_
      split
      · exact .bind_quiet (ih.eval value hs hvalue) fun _ _ _ _ _ _ _ => quiet_keeps
      · exact quiet_keeps
  | element _ _ _ name index =>
      rw [Eval.assign, assignTrail]
      refine lookup_keeps fun c _ => lookup_keeps fun u _ => lookup_keeps fun id _ => ?_
      refine .bind (ih.eval index hs (List.cons_subset.mp hreceiver).2) ?_
      intro _ i _ _ _ _ _
      refine lookup_keeps fun i _ => ?_
      exact .bind_quiet (ih.eval value hs hvalue) fun _ _ _ _ _ _ _ => quiet_keeps
  | literal | group | binary | call | list =>
      rw [Eval.assign, assignTrail]
      · exact quiet_keeps
      all_goals intros; contradiction

end Steps

/-! ## §3 Runs -/

section Runs

variable {T : Table ν} {es : List (Expr ν)}

/-- **Every bound.** Calls come from nodes, if the bodies of all functions in the table are made of
the given expressions. -/
theorem calls_kept (htable : ∀ name arity g, T name arity = some (.defined g) →
    Stmt.blockExprs g.body ⊆ es) (n : Nat) : CallsKept T es n := by
  induction n with
  | zero =>
      -- At the bound nothing happens any more.
      constructor <;> intros <;> exact .unfinished trivial
  | succ n ih =>
      exact {
        eval := eval_calls ih htable
        condition := condition_calls ih
        all := all_calls ih
        invoke := invoke_calls ih
        exec := fun s => exec_calls ih s
        block := fun body => block_calls ih body
        loop := fun condition body => loop_calls ih condition body
        initial := initial_calls ih
        select := select_calls ih
        assign := assign_calls ih }

theorem globals_calls (hkept : CallsKept T es n) (gs : List (Global ν)) {m : Machine ν}
    (hs : Sees T m.scope) (hgs : ∀ g ∈ gs, Expr.someParts g.value ⊆ es) :
    (callsContract T es).Keeps .ignorance (initGlobals .dynamic n gs) (globalsTrail .dynamic n gs) m
      fun _ _ m' => Sees T m'.scope := by
  induction gs generalizing m with
  | nil =>
      rw [initGlobals, globalsTrail]
      exact .pure trivial hs
  | cons g gs ih =>
      rw [List.forall_mem_cons] at hgs
      rw [initGlobals, globalsTrail]
      refine .bind (inWorld_calls hs (hkept.initial g.value hs hgs.1)) ?_
      rintro _ v m₁ - - - ⟨-, hs₁⟩
      exact .declare (le_refl _) trivial trivial (ih (hs₁.defineVariable _ _) hgs.2)

end Runs

end Eval

open Eval

namespace Program

variable {ν : Notes}

/-- What happens in a run while its globals are evaluated. -/
def globalsTrail (n : Nat) (p : Program ν) : Trail World ν :=
  Trail.within builtins (Eval.globalsTrail .dynamic n p.globals)

/-- What happens in a run after that, while `main` runs. -/
def mainTrail (n : Nat) (p : Program ν) : Trail World ν :=
  Trail.within builtins <|
    Trail.andThen (initGlobals .dynamic n p.globals) Trail.quiet fun _ =>
      Trail.inWorld fun scope =>
        Trail.andThen
          (Run.ofExcept
            (((defineAll scope p.functions).lookupFunction "main" 0).mapError .undefined))
          Trail.quiet fun main => invokeTrail .dynamic n (defineAll scope p.functions) main []

/-- A run is the evaluation of the globals, and then the run of `main`. -/
theorem trail_eq (n : Nat) (p : Program ν) (w : World) :
    p.trail n w = p.globalsTrail n w ++ p.mainTrail n w := rfl

/-- The expressions of all globals. -/
def globalExprs (p : Program ν) : List (Expr ν) :=
  p.globals.flatMap fun g => Expr.someParts g.value

/-- The expressions of all function bodies. -/
def bodyExprs (p : Program ν) : List (Expr ν) := p.functions.flatMap fun f => Stmt.blockExprs f.body

theorem globals_kept (n : Nat) (p : Program ν) :
    CallsKept (builtins : RuntimeScope ν).findFunction p.globalExprs n := by
  refine calls_kept ?_ n
  intro name arity g hg
  obtain ⟨b, hb, -⟩ := builtins_find hg
  cases hb

theorem bodies_closed (p : Program ν) (name : String) (arity : Nat) (g : Function ν)
    (h : (defineAll builtins p.functions).findFunction name arity = some (.defined g)) :
    Stmt.blockExprs g.body ⊆ p.bodyExprs := by
  rcases defineAll_find h with h | ⟨f, hf, heq, -⟩
  · obtain ⟨b, hb, -⟩ := builtins_find h
    cases hb
  · cases heq
    exact subset_flatMap (f := fun f : Function ν => Stmt.blockExprs f.body) hf

theorem bodies_kept (n : Nat) (p : Program ν) :
    CallsKept (defineAll builtins p.functions).findFunction p.bodyExprs n :=
  calls_kept p.bodies_closed n

theorem globals_see (n : Nat) (p : Program ν) (w : World) :
    (callsContract (builtins : RuntimeScope ν).findFunction p.globalExprs).Keeps .ignorance
      (initGlobals .dynamic n p.globals) (Eval.globalsTrail .dynamic n p.globals) ⟨builtins, w⟩
      fun _ _ m => Sees (builtins : RuntimeScope ν).findFunction m.scope :=
  globals_calls (p.globals_kept n) p.globals (fun _ _ => rfl) fun _ hg =>
    subset_flatMap (f := fun g : Global ν => Expr.someParts g.value) hg

/-- **Calls in globals.** While globals are evaluated, calls are made by nodes in them and enter
built-in functions. -/
theorem globalsTrail_calls (n : Nat) (p : Program ν) (w : World) {ev : Event ν}
    (h : ev ∈ p.globalsTrail n w) :
    ev.FromNode (builtins : RuntimeScope ν).findFunction p.globalExprs := by
  obtain ⟨_, _, _, hevents, _⟩ := p.globals_see n w fun _ _ => trivial
  exact hevents ev h

/-- **Calls in bodies.** While `main` runs, calls are made by nodes in function bodies and enter the
last function of the name and number of arguments. -/
theorem mainTrail_calls (n : Nat) (p : Program ν) (w : World) {ev : Event ν}
    (h : ev ∈ p.mainTrail n w) :
    ev.FromNode (defineAll builtins p.functions).findFunction p.bodyExprs := by
  have hrun : (callsContract (defineAll builtins p.functions).findFunction p.bodyExprs).Keeps
      .ignorance (p.run n) (p.mainTrail n) w fun _ _ _ => True := by
    refine .within (.bind (silent_keeps (p.globals_see n w)) ?_)
    intro _ _ m _ _ _ hscope
    -- The globals add variables only, so the functions are those of any other start.
    have hdefined : Sees (defineAll builtins p.functions).findFunction
        (defineAll m.scope p.functions) := defineAll_congr hscope
    refine .inWorld (.bind_still (.ofExcept _) trivial (fun _ _ => trivial) ?_)
    intro main hmain
    refine (p.bodies_kept n).invoke main [] hdefined ?_
    rintro g rfl
    refine p.bodies_closed "main" 0 g ?_
    rw [← hdefined]
    exact Scope.lookupFunction_ok.mp (Typing.mapError_eq_ok.mp (Run.ofExcept_done hmain))
  obtain ⟨_, _, _, hevents, _⟩ := hrun fun _ _ => trivial
  exact hevents ev h

end Program

end DynImp
