import DynImp.Proofs.Run.Contract

/-!
# Compositional properties

What holds of every run because of the way in which runs are put together.  A property of
computations and their trails is compositional if it holds of every single access to the
world, and carries over to whatever the evaluator puts together from computations that
have it.  Then it holds of the evaluator in all its parts, whatever the program, the scope
and the state are: one induction on the bound serves every such property.

* **Layer A: properties** and what makes them compositional.
* **Layer B: operations** on values and lists.
* **Layer C: steps**, one for each part of the evaluator.
* **Layer D: runs.**
-/

namespace DynImp

namespace Eval

variable {ν : Notes}

/-! ## §1 Properties -/

/-- **The moment of an event**: the world when it happens, or when what it tells of is over. -/
def Event.now : Event ν → World
  | evaluated _ _ _ result => result.2
  | executed _ _ result => result.2.world
  | applied _ _ _ world | bound _ _ world | called _ _ _ world | passed _ _ _ world => world

/-- The states whose output can be exchanged for another one. -/
class HasOutput (σ : Type) extends HasWorld σ where
  /-- The state with another output. -/
  withOutput : Output → σ → σ

instance : HasOutput World := ⟨fun output w => { w with output }⟩

instance : HasOutput (Machine ν) := ⟨fun output m => ⟨m.scope, { m.world with output }⟩⟩

/-- **Compositional property** of computations and their trails. -/
structure Compositional (ν : Notes) where
  holds : ∀ {σ α : Type} [HasOutput σ], Run σ α → Trail σ ν → Prop
  pure : ∀ {σ α : Type} [HasOutput σ] (a : α), holds (Pure.pure a : Run σ α) Trail.quiet
  fail : ∀ {σ α : Type} [HasOutput σ] (e : Fault), holds (Run.fail e : Run σ α) Trail.quiet
  unfinished : ∀ {σ α : Type} [HasOutput σ], holds (Run.unfinished : Run σ α) Trail.quiet
  bind : ∀ {σ α β : Type} [HasOutput σ] {x : Run σ α} {t : Trail σ ν} {f : α → Run σ β}
    {t' : α → Trail σ ν}, holds x t → (∀ a, holds (f a) (t' a)) →
    holds (x >>= f) (Trail.andThen x t t')
  /-- An event in front, in the state in which the computation starts. -/
  opening : ∀ {σ α : Type} [HasOutput σ] {x : Run σ α} {t : Trail σ ν} {event : σ → Event ν},
    (∀ s, (event s).worlds = [HasWorld.world s]) → (∀ s, (event s).now = HasWorld.world s) →
    holds x t → holds x (Trail.opening event t)
  /-- An event at the end, which tells of the whole computation. -/
  closing : ∀ {σ α : Type} [HasOutput σ] {x : Run σ α} {t : Trail σ ν} {event : σ → Event ν},
    (∀ s, (event s).worlds = [HasWorld.world s, HasWorld.world (x s).2]) →
    (∀ s, (event s).now = HasWorld.world (x s).2) →
    holds x t → holds x (Trail.closing t event)
  ask : ∀ {α : Type} (question : Heap → Option α), holds (World.ask question) Trail.quiet
  itemsOf : ∀ id, holds (World.itemsOf id) Trail.quiet
  readCell : ∀ cell, holds (World.readCell cell) Trail.quiet
  newList : ∀ items, holds (World.newList items) Trail.quiet
  setItem : ∀ id position v, holds (World.setItem id position v) Trail.quiet
  writeCell : ∀ cell v, holds (World.writeCell cell v) Trail.quiet
  /-- A line of output. -/
  emit : ∀ text, holds (World.emit (text ++ "\n")) Trail.quiet
  declare : ∀ name mutable v, holds (Machine.declare (ν := ν) name mutable v) Trail.quiet
  inWorld : ∀ {α : Type} {x : RuntimeScope ν → Run World α} {t : RuntimeScope ν → Trail World ν},
    (∀ scope, holds (x scope) (t scope)) → holds (Machine.inWorld x) (Trail.inWorld t)
  inBlock : ∀ {α : Type} {x : Run (Machine ν) α} {t : Trail (Machine ν) ν},
    holds x t → holds (Machine.inBlock x) (Trail.inBlock t)
  within : ∀ {α : Type} {x : Run (Machine ν) α} {t : Trail (Machine ν) ν} scope,
    holds x t → holds (Machine.within scope x) (Trail.within scope t)

namespace Compositional

variable (P : Compositional ν)

/-! ## §2 Operations -/

section Operations

variable {σ α β : Type} [HasOutput σ]

theorem ofExcept (r : Except Fault α) : P.holds (Run.ofExcept r : Run σ α) Trail.quiet := by
  cases r with
  | ok a => exact P.pure a
  | error e => exact P.fail e

/-- A computation after which nothing happens any more. -/
theorem bind_quiet {x : Run σ α} {t : Trail σ ν} {f : α → Run σ β} (hx : P.holds x t)
    (hf : ∀ a, P.holds (f a) Trail.quiet) : P.holds (x >>= f) t := by
  rw [← Trail.andThen_quiet x t]
  exact P.bind hx hf

theorem asBoolean (v : Value) : P.holds (asBoolean v) Trail.quiet := by
  unfold Eval.asBoolean
  split
  · exact P.pure _
  · exact P.fail _

theorem asInteger (v : Value) : P.holds (asInteger v) Trail.quiet := by
  unfold Eval.asInteger
  split
  · exact P.pure _
  · exact P.fail _

theorem asList (v : Value) : P.holds (asList v) Trail.quiet := by
  unfold Eval.asList
  split
  · exact P.pure _
  · exact P.fail _

theorem elementAt (id : ListId) (index : Int) : P.holds (elementAt id index) Trail.quiet :=
  P.bind_quiet (P.itemsOf id) fun _ => P.bind_quiet (P.ofExcept _) fun _ => P.pure _

theorem storeAt (id : ListId) (index : Int) (v : Value) :
    P.holds (storeAt id index v) Trail.quiet := by
  refine P.bind_quiet (P.ask _) fun cyclic => ?_
  cases cyclic with
  | true => exact P.fail _
  | false =>
      exact P.bind_quiet (P.itemsOf id) fun _ => P.bind_quiet (P.ofExcept _) fun _ =>
        P.setItem _ _ _

theorem apply (op : BinaryOp) (a b : Value) : P.holds (apply op a b) Trail.quiet := by
  cases op with
  | and | or => exact P.fail _
  | less | greater => exact P.bind_quiet (P.ofExcept _) fun _ => P.pure _
  | equal | notEqual => exact P.bind_quiet (P.ask _) fun _ => P.pure _
  | add =>
      change P.holds (add a b) Trail.quiet
      unfold add
      split
      · exact P.bind_quiet (P.ask _) fun _ => P.pure _
      · exact P.bind_quiet (P.ask _) fun _ => P.pure _
      · exact P.pure _
      · exact P.pure _
      · exact P.fail _
  | subtract | multiply | divide | power => exact P.ofExcept _

theorem callBuiltin (b : Builtin) (args : List Value) :
    P.holds (callBuiltin b args) Trail.quiet := by
  unfold Eval.callBuiltin
  split
  · exact P.bind_quiet (P.ask _) fun _ => P.bind_quiet (P.emit _) fun _ => P.pure _
  · exact P.ofExcept _
  · exact P.ofExcept _
  · exact P.fail _

/-- A declaration, whose event tells of the state with the new cell. -/
theorem declaring {name : String} {mutable : Bool} {v : Value} {event : Cell → World → Event ν}
    {f : Unit → Run (Machine ν) α} {next : Trail (Machine ν) ν}
    (hworlds : ∀ c w, (event c w).worlds = [w]) (hnow : ∀ c w, (event c w).now = w)
    (hf : P.holds (f ()) next) :
    P.holds (Machine.declare name mutable v >>= f) (Trail.declare name mutable v event next) :=
  P.bind (P.declare name mutable v) fun _ =>
    P.opening (fun _ => hworlds _ _) (fun _ => hnow _ _) hf

theorem declareParams (callee : ν.callee) (index : Nat) (params : List Parameter)
    (args : List Value) :
    P.holds (declareParams params args) (paramsTrail callee index params args) := by
  induction params generalizing index args with
  | nil =>
      rw [Eval.declareParams, paramsTrail]
      · exact P.pure _
      all_goals intros; contradiction
  | cons p params ih =>
      cases args with
      | nil =>
          rw [Eval.declareParams, paramsTrail]
          · exact P.pure _
          all_goals intros; contradiction
      | cons v args =>
          rw [Eval.declareParams, paramsTrail]
          exact P.declaring (fun _ _ => rfl) (fun _ _ => rfl) (ih _ _)

end Operations

/-! ## §3 Steps -/

/-- **The evaluator has the property** down to a bound on the depth, in all its parts. -/
structure Kept (d : Discipline ν) (n : Nat) : Prop where
  eval : ∀ scope e, P.holds (eval d n scope e) (evalTrail d n scope e)
  condition : ∀ scope e, P.holds (evalCondition d n scope e) (conditionTrail d n scope e)
  all : ∀ scope es, P.holds (evalAll d n scope es) (allTrail d n scope es)
  invoke : ∀ scope f args, P.holds (invoke d n scope f args) (invokeTrail d n scope f args)
  exec : ∀ s, P.holds (exec d n s) (execTrail d n s)
  block : ∀ body, P.holds (execAll d n body) (blockTrail d n body)
  loop : ∀ condition body,
    P.holds (execLoop d n condition body) (loopTrail d n condition body)
  initial : ∀ scope value, P.holds (evalInitial d n scope value) (initialTrail d n scope value)
  select : ∀ scope v cases, P.holds (select d n scope v cases) (selectTrail d n scope v cases)
  assign : ∀ scope receiver value,
    P.holds (assign d n scope receiver value) (assignTrail d n scope receiver value)

section Steps

variable {P} {d : Discipline ν} {n : Nat} (ih : P.Kept d n)

include ih

theorem eval_step (scope : RuntimeScope ν) (e : Expr ν) :
    P.holds (Eval.eval d (n + 1) scope e) (evalTrail d (n + 1) scope e) := by
  unfold evalTrail
  refine P.closing (fun _ => rfl) (fun _ => rfl) ?_
  cases e with
  | literal =>
      rw [Eval.eval]
      exact P.pure _
  | group _ _ inner =>
      rw [Eval.eval]
      exact ih.eval scope inner
  | binary _ op left right =>
      cases op with
      | and =>
          simp only [Eval.eval]
          -- It is for the left operand to say whether the right one runs.
          refine P.bind (ih.condition scope left) fun b => ?_
          cases b with
          | true => exact P.bind_quiet (ih.condition scope right) fun _ => P.pure _
          | false => exact P.pure _
      | or =>
          simp only [Eval.eval]
          refine P.bind (ih.condition scope left) fun b => ?_
          cases b with
          | true => exact P.pure _
          | false => exact P.bind_quiet (ih.condition scope right) fun _ => P.pure _
      | less | greater | equal | notEqual | add | subtract | multiply | divide | power =>
          simp only [Eval.eval]
          refine P.bind (ih.eval scope left) fun a => P.bind (ih.eval scope right) fun b => ?_
          exact P.opening (fun _ => rfl) (fun _ => rfl) (P.apply _ a b)
  | var =>
      rw [Eval.eval]
      exact P.bind_quiet (P.ofExcept _) fun _ => P.readCell _
  | element _ _ _ name index =>
      rw [Eval.eval]
      refine P.bind (P.ofExcept _) fun _ => P.bind (P.readCell _) fun v => ?_
      refine P.bind (P.asList v) fun id => P.bind_quiet (ih.eval scope index) fun i => ?_
      exact P.bind_quiet (P.asInteger i) fun _ => P.elementAt id _
  | call _ _ callee name args =>
      rw [Eval.eval]
      refine P.bind (P.ofExcept _) fun f => P.bind (ih.all scope args) fun vs => ?_
      exact P.opening (fun _ => rfl) (fun _ => rfl) (ih.invoke scope f vs)
  | list _ _ items =>
      rw [Eval.eval]
      exact P.bind_quiet (ih.all scope items) fun _ => P.newList _

theorem condition_step (scope : RuntimeScope ν) (e : Expr ν) :
    P.holds (evalCondition d (n + 1) scope e) (conditionTrail d (n + 1) scope e) := by
  rw [evalCondition, conditionTrail]
  exact P.bind_quiet (ih.eval scope e) fun v => P.asBoolean v

theorem all_step (scope : RuntimeScope ν) (es : List (Expr ν)) :
    P.holds (evalAll d (n + 1) scope es) (allTrail d (n + 1) scope es) := by
  cases es with
  | nil =>
      rw [evalAll, allTrail]
      exact P.pure _
  | cons e rest =>
      rw [evalAll, allTrail]
      exact P.bind (ih.eval scope e) fun _ => P.bind_quiet (ih.all scope rest) fun _ => P.pure _

theorem invoke_step (scope : RuntimeScope ν) (f : Callable ν) (args : List Value) :
    P.holds (Eval.invoke d (n + 1) scope f args) (invokeTrail d (n + 1) scope f args) := by
  cases f with
  | builtin b =>
      rw [Eval.invoke, invokeTrail]
      exact P.callBuiltin b args
  | defined f =>
      rw [Eval.invoke, invokeTrail]
      -- Parameters and body share one frame, and the call is over when it is closed.
      have hbody := P.bind (P.declareParams f.callee 0 f.params args) fun _ => ih.block f.body
      exact P.bind_quiet (P.within (d.home scope).push hbody) fun _ => P.pure _

theorem exec_step (s : Stmt ν) : P.holds (Eval.exec d (n + 1) s) (execTrail d (n + 1) s) := by
  unfold execTrail
  refine P.closing (fun _ => rfl) (fun _ => rfl) ?_
  cases s with
  | perform e =>
      rw [Eval.exec]
      exact P.bind_quiet (P.inWorld fun scope => ih.eval scope e) fun _ => P.pure _
  | declare _ _ name _ value =>
      rw [Eval.exec]
      refine P.bind (P.inWorld fun scope => ih.initial scope value) fun v => ?_
      exact P.declaring (fun _ _ => rfl) (fun _ _ => rfl) (P.pure _)
  | assign receiver value =>
      rw [Eval.exec]
      exact P.bind_quiet (P.inWorld fun scope => ih.assign scope receiver value) fun _ => P.pure _
  | choose condition yes no =>
      rw [Eval.exec]
      refine P.bind (P.inWorld fun scope => ih.condition scope condition) fun b => ?_
      cases b with
      | true => exact P.inBlock (ih.block yes)
      | false => exact P.inBlock (ih.block no)
  | switch subject cases =>
      rw [Eval.exec]
      -- Subject and case values are one computation in the world; the chosen block is another.
      have hselect := fun scope =>
        P.bind (ih.eval scope subject) fun v => ih.select scope v cases
      refine P.bind (P.inWorld hselect) fun body => ?_
      cases body with
      | none => exact P.pure _
      | some body => exact P.inBlock (ih.block body)
  | loop condition body =>
      rw [Eval.exec]
      exact ih.loop condition body
  | giveBack value =>
      rw [Eval.exec]
      exact P.bind_quiet (P.inWorld fun scope => ih.eval scope value) fun _ => P.pure _

theorem block_step (body : List (Stmt ν)) :
    P.holds (execAll d (n + 1) body) (blockTrail d (n + 1) body) := by
  cases body with
  | nil =>
      rw [execAll, blockTrail]
      exact P.pure _
  | cons s rest =>
      rw [execAll, blockTrail]
      refine P.bind (ih.exec s) fun flow => ?_
      cases flow with
      | next => exact ih.block rest
      | returned v => exact P.pure _

theorem loop_step (condition : Expr ν) (body : List (Stmt ν)) :
    P.holds (execLoop d (n + 1) condition body) (loopTrail d (n + 1) condition body) := by
  rw [execLoop, loopTrail]
  refine P.bind (P.inWorld fun scope => ih.condition scope condition) fun b => ?_
  cases b with
  | false => exact P.pure _
  | true =>
      refine P.bind (P.inBlock (ih.block body)) fun flow => ?_
      cases flow with
      | next => exact ih.loop condition body
      | returned v => exact P.pure _

theorem initial_step (scope : RuntimeScope ν) (value : Option (Expr ν)) :
    P.holds (evalInitial d (n + 1) scope value) (initialTrail d (n + 1) scope value) := by
  cases value with
  | none =>
      rw [evalInitial, initialTrail]
      exact P.pure _
  | some e =>
      rw [evalInitial, initialTrail]
      exact ih.eval scope e

theorem select_step (scope : RuntimeScope ν) (v : Value) (cases : List (Case ν)) :
    P.holds (Eval.select d (n + 1) scope v cases) (selectTrail d (n + 1) scope v cases) := by
  rcases cases with _ | ⟨⟨offset, _ | value, body⟩, rest⟩
  · rw [Eval.select, selectTrail]
    exact P.pure _
  · rw [Eval.select, selectTrail]
    exact P.pure _
  · rw [Eval.select, selectTrail]
    refine P.bind (ih.eval scope value) fun u => P.bind (P.ask _) fun same => ?_
    cases same with
    | true => exact P.pure _
    | false => exact ih.select scope v rest

theorem assign_step (scope : RuntimeScope ν) (receiver value : Expr ν) :
    P.holds (Eval.assign d (n + 1) scope receiver value)
      (assignTrail d (n + 1) scope receiver value) := by
  cases receiver with
  | var _ _ _ name =>
      rw [Eval.assign, assignTrail]
      refine P.bind (P.ofExcept _) fun c => ?_
      split
      · exact P.bind_quiet (ih.eval scope value) fun _ => P.writeCell _ _
      · exact P.fail _
  | element _ _ _ name index =>
      rw [Eval.assign, assignTrail]
      refine P.bind (P.ofExcept _) fun c => P.bind (P.readCell _) fun u => ?_
      refine P.bind (P.asList u) fun id => P.bind (ih.eval scope index) fun i => ?_
      refine P.bind (P.asInteger i) fun i => P.bind_quiet (ih.eval scope value) fun v => ?_
      exact P.storeAt id i v
  | literal | group | binary | call | list =>
      rw [Eval.assign, assignTrail]
      · exact P.fail _
      all_goals intros; contradiction

end Steps

/-! ## §4 Runs -/

/-- **Every bound.** The evaluator has the property. -/
theorem kept (d : Discipline ν) (n : Nat) : P.Kept d n := by
  induction n with
  | zero =>
      -- At the bound all parts give up.
      constructor <;> intros <;> exact P.unfinished
  | succ n ih =>
      exact {
        eval := eval_step ih
        condition := condition_step ih
        all := all_step ih
        invoke := invoke_step ih
        exec := exec_step ih
        block := block_step ih
        loop := loop_step ih
        initial := initial_step ih
        select := select_step ih
        assign := assign_step ih }

theorem initGlobals (d : Discipline ν) (n : Nat) (globals : List (Global ν)) :
    P.holds (initGlobals d n globals) (globalsTrail d n globals) := by
  induction globals with
  | nil =>
      rw [Eval.initGlobals, globalsTrail]
      exact P.pure _
  | cons g rest ih =>
      rw [Eval.initGlobals, globalsTrail]
      refine P.bind (P.inWorld fun scope => (P.kept d n).initial scope g.value) fun v => ?_
      exact P.declaring (fun _ _ => rfl) (fun _ _ => rfl) ih

/-- **Runs.** A run of any program has the property. -/
theorem run (d : Discipline ν) (n : Nat) (p : Program ν) :
    P.holds (p.runUnder d n) (p.trailUnder d n) := by
  refine P.within builtins (P.bind (P.initGlobals d n p.globals) fun _ => P.inWorld fun scope => ?_)
  exact P.bind (P.ofExcept _) fun main => (P.kept d n).invoke _ main []

end Compositional

end Eval

end DynImp
