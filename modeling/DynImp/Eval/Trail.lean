import DynImp.Eval.Exec

/-!
# Trails

What happens in the course of a run, in order: every evaluation of an expression and every
execution of a statement with the state before and after it, every application of an
operator, every call, and every variable that gets its cell.

The trail of a computation follows the evaluator clause by clause.  It changes nothing; it
is there to say of a run what holds *at every point* of it and not only at its end.
-/

namespace DynImp

namespace Eval

/-- **Event.** One thing that happens in a run. -/
inductive Event (ν : Notes) where
  | evaluated (scope : RuntimeScope ν) (e : Expr ν) (before : World)
      (result : Outcome Fault Value × World)
  | executed (s : Stmt ν) (before : Machine ν) (result : Outcome Fault Flow × Machine ν)
  /-- An operator other than the logical ones is applied to the values of its operands. -/
  | applied (op : BinaryOp) (a b : Value) (world : World)
  /-- A global or local variable gets its cell. -/
  | bound (binding : ν.binding) (cell : Cell) (world : World)
  /-- A called function is entered with its arguments. -/
  | called (callee : ν.callee) (f : Callable ν) (args : List Value) (world : World)
  /-- A parameter, counted from 0, gets its cell. -/
  | passed (callee : ν.callee) (index : Nat) (cell : Cell) (world : World)

/-- The states of the world that an event is about. -/
def Event.worlds {ν : Notes} : Event ν → List World
  | evaluated _ _ before result => [before, result.2]
  | executed _ before result => [before.world, result.2.world]
  | applied _ _ _ world | bound _ _ world | called _ _ _ world | passed _ _ _ world => [world]

/-- **Trail** of a computation: what happens when it acts on a state. -/
abbrev Trail (σ : Type) (ν : Notes) : Type := σ → List (Event ν)

namespace Trail

variable {ν : Notes} {σ α : Type}

/-- A computation in which nothing happens. -/
def quiet : Trail σ ν := fun _ => []

/-- What happens in a computation, and after it if it yields a value. -/
def andThen (x : Run σ α) (t : Trail σ ν) (next : α → Trail σ ν) : Trail σ ν := fun s =>
  t s ++
    match x s with
    | (.done a, s) => next a s
    | _ => []

theorem andThen_quiet (x : Run σ α) (t : Trail σ ν) : andThen x t (fun _ => quiet) = t := by
  funext s
  simp only [andThen, quiet]
  split <;> exact List.append_nil _

/-- An event, and what happens afterwards. -/
def opening (event : σ → Event ν) (t : Trail σ ν) : Trail σ ν := fun s => event s :: t s

/-- What happens first, and an event. -/
def closing (t : Trail σ ν) (event : σ → Event ν) : Trail σ ν := fun s => t s ++ [event s]

/-- As `Machine.inWorld`. -/
def inWorld (t : RuntimeScope ν → Trail World ν) : Trail (Machine ν) ν :=
  fun m => t m.scope m.world

/-- As `Machine.inBlock`. -/
def inBlock (t : Trail (Machine ν) ν) : Trail (Machine ν) ν := fun m => t ⟨m.scope.push, m.world⟩

/-- As `Machine.within`. -/
def within (scope : RuntimeScope ν) (t : Trail (Machine ν) ν) : Trail World ν :=
  fun w => t ⟨scope, w⟩

/-- As `Machine.declare`, which always yields.  The event is about the new cell, the latest one. -/
def declare (name : String) (mutable : Bool) (v : Value) (event : Cell → World → Event ν)
    (next : Trail (Machine ν) ν) : Trail (Machine ν) ν :=
  andThen (Machine.declare name mutable v) quiet fun _ =>
    opening (fun m => event ⟨m.world.cells.size - 1, mutable⟩ m.world) next

end Trail

open Trail

variable {ν : Notes}

/-- The trail of declaring parameters, of which the first has this index. -/
def paramsTrail (callee : ν.callee) : Nat → List Parameter → List Value → Trail (Machine ν) ν
  | index, p :: params, v :: args =>
    declare p.name true v (.passed callee index) (paramsTrail callee (index + 1) params args)
  | _, _, _ => quiet

section Disciplined

variable (d : Discipline ν)

mutual

/-- The trail of an evaluation. -/
def evalTrail : Nat → RuntimeScope ν → Expr ν → Trail World ν
  | 0, _, _ => quiet
  | n + 1, scope, e =>
    closing
      (match e with
      | .literal .. | .var .. => quiet
      | .group _ _ inner => evalTrail n scope inner
      | .binary _ op left right =>
        match op with
        | .and =>
          andThen (evalCondition d n scope left) (conditionTrail n scope left)
            fun b => if b then conditionTrail n scope right else quiet
        | .or =>
          andThen (evalCondition d n scope left) (conditionTrail n scope left)
            fun b => if b then quiet else conditionTrail n scope right
        | op =>
          andThen (eval d n scope left) (evalTrail n scope left) fun a =>
            andThen (eval d n scope right) (evalTrail n scope right) fun b =>
              opening (.applied op a b) quiet
      | .element _ _ _ name index =>
        andThen (lookupCell scope name) quiet fun cell =>
          andThen (World.readCell cell.location) quiet fun v =>
            andThen (asList v) quiet fun _ => evalTrail n scope index
      | .call _ _ callee name args =>
        andThen (Run.ofExcept ((d.resolve scope callee name args.length).mapError .undefined)) quiet
          fun f => andThen (evalAll d n scope args) (allTrail n scope args) fun args =>
            opening (.called callee f args) (invokeTrail n scope f args)
      | .list _ _ items => allTrail n scope items)
      fun w => .evaluated scope e w (eval d (n + 1) scope e w)

/-- The trail of the evaluation of a condition. -/
def conditionTrail : Nat → RuntimeScope ν → Expr ν → Trail World ν
  | 0, _, _ => quiet
  | n + 1, scope, e => evalTrail n scope e

/-- The trail of the evaluation of expressions from left to right. -/
def allTrail : Nat → RuntimeScope ν → List (Expr ν) → Trail World ν
  | 0, _, _ => quiet
  | _ + 1, _, [] => quiet
  | n + 1, scope, e :: rest =>
    andThen (eval d n scope e) (evalTrail n scope e) fun _ => allTrail n scope rest

/-- The trail of a call with evaluated arguments. -/
def invokeTrail : Nat → RuntimeScope ν → Callable ν → List Value → Trail World ν
  | 0, _, _, _ => quiet
  | _ + 1, _, .builtin _, _ => quiet
  | n + 1, scope, .defined f, args =>
    within (d.home scope).push <|
      andThen (declareParams f.params args) (paramsTrail f.callee 0 f.params args)
        fun _ => blockTrail n f.body

/-- The trail of the execution of a statement. -/
def execTrail : Nat → Stmt ν → Trail (Machine ν) ν
  | 0, _ => quiet
  | n + 1, s =>
    closing
      (match s with
      | .perform e => inWorld fun scope => evalTrail n scope e
      | .declare _ binding name _ value =>
        andThen (Machine.inWorld fun scope => evalInitial d n scope value)
          (inWorld fun scope => initialTrail n scope value)
          fun v => declare name true v (.bound binding) quiet
      | .assign receiver value => inWorld fun scope => assignTrail n scope receiver value
      | .choose condition yes no =>
        andThen (Machine.inWorld fun scope => evalCondition d n scope condition)
          (inWorld fun scope => conditionTrail n scope condition)
          fun b => if b then inBlock (blockTrail n yes) else inBlock (blockTrail n no)
      | .switch subject cases =>
        andThen (Machine.inWorld fun scope => do select d n scope (← eval d n scope subject) cases)
          (inWorld fun scope => andThen (eval d n scope subject) (evalTrail n scope subject)
            fun v => selectTrail n scope v cases)
          fun body =>
            match body with
            | some body => inBlock (blockTrail n body)
            | none => quiet
      | .loop condition body => loopTrail n condition body
      | .giveBack value => inWorld fun scope => evalTrail n scope value)
      fun m => .executed s m (exec d (n + 1) s m)

/-- The trail of the execution of statements in order. -/
def blockTrail : Nat → List (Stmt ν) → Trail (Machine ν) ν
  | 0, _ => quiet
  | _ + 1, [] => quiet
  | n + 1, s :: rest =>
    andThen (exec d n s) (execTrail n s) fun flow =>
      match flow with
      | .next => blockTrail n rest
      | .returned _ => quiet

/-- The trail of the rounds of a loop. -/
def loopTrail : Nat → Expr ν → List (Stmt ν) → Trail (Machine ν) ν
  | 0, _, _ => quiet
  | n + 1, condition, body =>
    andThen (Machine.inWorld fun scope => evalCondition d n scope condition)
      (inWorld fun scope => conditionTrail n scope condition) fun b =>
        if b then
          andThen (Machine.inBlock (execAll d n body)) (inBlock (blockTrail n body)) fun flow =>
            match flow with
            | .next => loopTrail n condition body
            | .returned _ => quiet
        else quiet

/-- The trail of the evaluation of an initial value. -/
def initialTrail : Nat → RuntimeScope ν → Option (Expr ν) → Trail World ν
  | 0, _, _ => quiet
  | n + 1, scope, some e => evalTrail n scope e
  | _ + 1, _, none => quiet

/-- The trail of the choice of a case. -/
def selectTrail : Nat → RuntimeScope ν → Value → List (Case ν) → Trail World ν
  | 0, _, _, _ => quiet
  | _ + 1, _, _, [] => quiet
  | _ + 1, _, _, .mk _ none _ :: _ => quiet
  | n + 1, scope, subject, .mk _ (some value) _ :: rest =>
    andThen (eval d n scope value) (evalTrail n scope value) fun v =>
      andThen (World.ask (·.equal? v subject)) quiet fun same =>
        if same then quiet else selectTrail n scope subject rest

/-- The trail of an assignment. -/
def assignTrail : Nat → RuntimeScope ν → Expr ν → Expr ν → Trail World ν
  | 0, _, _, _ => quiet
  | n + 1, scope, .var _ _ _ name, value =>
    andThen (lookupCell scope name) quiet fun cell =>
      if cell.mutable then evalTrail n scope value else quiet
  | n + 1, scope, .element _ _ _ name index, value =>
    andThen (lookupCell scope name) quiet fun cell =>
      andThen (World.readCell cell.location) quiet fun v =>
        andThen (asList v) quiet fun _ =>
          andThen (eval d n scope index) (evalTrail n scope index) fun i =>
            andThen (asInteger i) quiet fun _ => evalTrail n scope value
  | _ + 1, _, _, _ => quiet

end

/-- The trail of evaluating globals in order. -/
def globalsTrail (n : Nat) : List (Global ν) → Trail (Machine ν) ν
  | [] => quiet
  | g :: rest =>
    andThen (Machine.inWorld fun scope => evalInitial d n scope g.value)
      (inWorld fun scope => initialTrail d n scope g.value)
      fun v => declare g.name g.mutable v (.bound g.binding) (globalsTrail n rest)

/-- The trail of the body of a program. -/
def mainTrail (n : Nat) (p : Program ν) : Trail (Machine ν) ν :=
  andThen (initGlobals d n p.globals) (globalsTrail d n p.globals) fun _ =>
    inWorld fun scope =>
      andThen
        (Run.ofExcept (((defineAll scope p.functions).lookupFunction "main" 0).mapError .undefined))
        quiet fun main => invokeTrail d n (defineAll scope p.functions) main []

end Disciplined

end Eval

/-- The trail of a run under a discipline. -/
def Program.trailUnder {ν : Notes} (d : Eval.Discipline ν) (n : Nat) (p : Program ν) :
    Eval.Trail Eval.World ν :=
  Eval.Trail.within Eval.builtins (Eval.mainTrail d n p)

/-- The trail of a run. -/
def Program.trail {ν : Notes} (n : Nat) (p : Program ν) : Eval.Trail Eval.World ν :=
  p.trailUnder .dynamic n

end DynImp
