import DynImp.Eval.Builtin
import DynImp.Eval.Operators
import DynImp.Program

/-!
# Running programs

* **Layer A: expressions** are evaluated in a scope they cannot change.
* **Layer B: statements** are executed in a scope that a declaration adds to.  A block runs in a
  frame of its own, which is closed when the block is left, on every path.
* **Layer C: programs.** Globals are evaluated in order, then all functions are defined, then
  `main` is called.

How a call finds its function, and inside which scope the body runs, is a parameter.  The
language is dynamic in both: the function is looked up by name when it is called, and its
body runs in a frame inside the scope of the caller.

A `RETURN` is not a fault.  Every statement says how it was left, and a returned value is
passed up through the enclosing blocks to the call that owns the body.

The first argument of every function bounds the depth of the evaluation; it is counted down
at every step into a part, and for every round of a loop and every statement of a block.
-/

namespace DynImp

namespace Eval

/-! ## §1 Scopes -/

/-- **Cell.** What a variable name is bound to. -/
structure Cell where
  /-- The place of the value. -/
  location : Nat
  /-- Whether it may be assigned to. -/
  mutable : Bool
  deriving DecidableEq, Repr

/-- **Callable.** What a function name is bound to. -/
inductive Callable (ν : Notes) where
  | builtin (b : Builtin)
  | defined (f : Function ν)

/-- The names of a running program. -/
abbrev RuntimeScope (ν : Notes) := Scope Cell (Callable ν)

/-- **Machine.** What statements act on: the names, and the world. -/
structure Machine (ν : Notes) where
  scope : RuntimeScope ν
  world : World

/-- **Flow.** How a statement is left. -/
inductive Flow where
  /-- The next statement comes next. -/
  | next
  /-- The enclosing function is left with a value. -/
  | returned (v : Value)
  deriving DecidableEq, Repr

variable {ν : Notes}

/-- What a function gives back whose body is left like this: nothing, unless it returns. -/
def Flow.value : Flow → Value
  | next => .nil
  | returned v => v

namespace Machine

/-- A computation that uses the names and acts on the world alone. -/
@[inline] def inWorld {α : Type} (x : RuntimeScope ν → Run World α) : Run (Machine ν) α :=
  fun ⟨scope, world⟩ =>
    let (outcome, world) := x scope world
    (outcome, ⟨scope, world⟩)

/-- A block: it runs in a new frame, and the scope afterwards is the one before. -/
@[inline] def inBlock {α : Type} (x : Run (Machine ν) α) : Run (Machine ν) α :=
  fun ⟨scope, world⟩ =>
    let (outcome, ⟨_, world⟩) := x ⟨scope.push, world⟩
    (outcome, ⟨scope, world⟩)

/-- Declares a variable in the innermost frame, with a new cell for its value. -/
def declare (name : String) (mutable : Bool) (v : Value) : Run (Machine ν) Unit :=
  fun ⟨scope, world⟩ =>
    let (outcome, world) := World.newCell v world
    match outcome with
    | .done location => (.done (), ⟨scope.defineVariable name ⟨location, mutable⟩, world⟩)
    | .failed e => (.failed e, ⟨scope, world⟩)
    | .unfinished => (.unfinished, ⟨scope, world⟩)

/-- A computation on names of its own. -/
@[inline] def within {α : Type} (scope : RuntimeScope ν) (x : Run (Machine ν) α) : Run World α :=
  fun world =>
    let (outcome, ⟨_, world⟩) := x ⟨scope, world⟩
    (outcome, world)

end Machine

/-! ## §2 Kinds of values -/

/-- The truth value that a condition has to be. -/
def asBoolean : Value → Run World Bool
  | .boolean b => pure b
  | v => .fail (.typeMismatch .boolean [v.tag])

/-- The integer that an index has to be. -/
def asInteger : Value → Run World Int
  | .integer i => pure i
  | v => .fail (.typeMismatch .integer [v.tag])

/-- The list that an element is taken of. -/
def asList : Value → Run World ListId
  | .list id => pure id
  | v => .fail (.typeMismatch .list [v.tag])

/-- The cell of a variable. -/
def lookupCell (scope : RuntimeScope ν) (name : String) : Run World Cell :=
  .ofExcept ((scope.lookupVariable name).mapError .undefined)

/-- **Discipline.** How a call finds its function, and inside which scope the body runs. -/
structure Discipline (ν : Notes) where
  /-- The function of a call, found by its note or by its name and number of arguments. -/
  resolve : RuntimeScope ν → ν.callee → String → Nat → Except ScopeError (Callable ν)
  /-- The scope that the frame of the body is opened in, given that of the caller. -/
  home : RuntimeScope ν → RuntimeScope ν

/-- **Dynamic scoping**, the discipline of the language: functions are found by name, and bodies
run inside the scope of the caller. -/
def Discipline.dynamic : Discipline ν := ⟨fun scope _ => scope.lookupFunction, fun scope => scope⟩

/-- **Lexical scoping**, for comparison: bodies run inside the outermost scope, where all functions
are defined. -/
def Discipline.lexical : Discipline ν := ⟨fun scope _ => scope.lookupFunction, Scope.outermost⟩

/-- **Positions.** The position that an index stands for in a list of some length. -/
def position (index : Int) (length : Nat) : Except Fault Nat :=
  if 0 ≤ index ∧ index < length then .ok index.toNat else .error (.indexOutOfBounds index length)

/-- The element at an index. -/
def elementAt (id : ListId) (index : Int) : Run World Value := do
  let items ← World.itemsOf id
  let position ← Run.ofExcept (position index items.length)
  return items.getD position .nil

/-- **Element assignment.** A list may not come to contain itself; that is found out before the
index is looked at. -/
def storeAt (id : ListId) (index : Int) (v : Value) : Run World Unit := do
  let cyclic ← World.ask (·.contains? v id)
  if cyclic then .fail .cyclicList
  else
    let items ← World.itemsOf id
    let position ← Run.ofExcept (position index items.length)
    World.setItem id position v

/-- Declares parameters with their arguments, in order.  What is left over on either side is
dropped. -/
def declareParams : List Parameter → List Value → Run (Machine ν) Unit
  | p :: params, v :: args => do
    Machine.declare p.name true v
    declareParams params args
  | _, _ => pure ()

/-! ## §3 Expressions and statements -/

section Disciplined

variable (d : Discipline ν)

mutual

/-- **Evaluation** of an expression. -/
def eval : Nat → RuntimeScope ν → Expr ν → Run World Value
  | 0, _, _ => .unfinished
  | _ + 1, _, .literal _ _ value => pure (.scalar value)
  | n + 1, scope, .group _ _ inner => eval n scope inner
  | n + 1, scope, .binary _ op left right =>
    match op with
    -- The right operand runs only if it decides the result.
    | .and => do
      if ← evalCondition n scope left then
        let b ← evalCondition n scope right
        return .boolean b
      else return .boolean false
    | .or => do
      if ← evalCondition n scope left then return .boolean true
      else
        let b ← evalCondition n scope right
        return .boolean b
    | op => do
      let a ← eval n scope left
      let b ← eval n scope right
      apply op a b
  | _ + 1, scope, .var _ _ _ name => do
    let cell ← lookupCell scope name
    World.readCell cell.location
  | n + 1, scope, .element _ _ _ name index => do
    -- The list is the one the name stands for now; the index may rebind the name.
    let cell ← lookupCell scope name
    let id ← asList (← World.readCell cell.location)
    let index ← asInteger (← eval n scope index)
    elementAt id index
  -- The function is looked up first: an unknown name wins over a fault in the arguments.
  | n + 1, scope, .call _ _ callee name args => do
    let callable ← Run.ofExcept ((d.resolve scope callee name args.length).mapError .undefined)
    let args ← evalAll n scope args
    invoke n scope callable args
  | n + 1, scope, .list _ _ items => do
    let items ← evalAll n scope items
    World.newList items

/-- Evaluation of a condition, which has to be a truth value. -/
def evalCondition : Nat → RuntimeScope ν → Expr ν → Run World Bool
  | 0, _, _ => .unfinished
  | n + 1, scope, e => do asBoolean (← eval n scope e)

/-- Evaluation of expressions from left to right. -/
def evalAll : Nat → RuntimeScope ν → List (Expr ν) → Run World (List Value)
  | 0, _, _ => .unfinished
  | _ + 1, _, [] => pure []
  | n + 1, scope, e :: rest => do
    let v ← eval n scope e
    let vs ← evalAll n scope rest
    return v :: vs

/-- **Calls** with evaluated arguments.  The body of a function runs in a frame that holds its
parameters. -/
def invoke : Nat → RuntimeScope ν → Callable ν → List Value → Run World Value
  | 0, _, _, _ => .unfinished
  | _ + 1, _, .builtin b, args => callBuiltin b args
  | n + 1, scope, .defined f, args => do
    let flow ← Machine.within (d.home scope).push do
      declareParams f.params args
      execAll n f.body
    return flow.value

/-- **Execution** of a statement. -/
def exec : Nat → Stmt ν → Run (Machine ν) Flow
  | 0, _ => .unfinished
  | n + 1, .perform e => do
    let _ ← Machine.inWorld fun scope => eval n scope e
    return .next
  | n + 1, .declare _ _ name _ value => do
    let v ← Machine.inWorld fun scope => evalInitial n scope value
    Machine.declare name true v
    return .next
  | n + 1, .assign receiver value => do
    Machine.inWorld fun scope => assign n scope receiver value
    return .next
  | n + 1, .choose condition yes no => do
    if ← Machine.inWorld fun scope => evalCondition n scope condition then
      Machine.inBlock (execAll n yes)
    else Machine.inBlock (execAll n no)
  | n + 1, .switch subject cases => do
    let body ← Machine.inWorld fun scope => do select n scope (← eval n scope subject) cases
    match body with
    | some body => Machine.inBlock (execAll n body)
    | none => return .next
  | n + 1, .loop condition body => execLoop n condition body
  | n + 1, .giveBack value => do
    let v ← Machine.inWorld fun scope => eval n scope value
    return .returned v

/-- Execution of statements in order, up to the first that returns. -/
def execAll : Nat → List (Stmt ν) → Run (Machine ν) Flow
  | 0, _ => .unfinished
  | _ + 1, [] => return .next
  | n + 1, s :: rest => do
    match ← exec n s with
    | .next => execAll n rest
    | .returned v => return .returned v

/-- The rounds of a loop: each one evaluates the condition and runs the body in a new frame. -/
def execLoop : Nat → Expr ν → List (Stmt ν) → Run (Machine ν) Flow
  | 0, _, _ => .unfinished
  | n + 1, condition, body => do
    if ← Machine.inWorld fun scope => evalCondition n scope condition then
      match ← Machine.inBlock (execAll n body) with
      | .next => execLoop n condition body
      | .returned v => return .returned v
    else return .next

/-- The initial value of a variable, nothing if none is given. -/
def evalInitial : Nat → RuntimeScope ν → Option (Expr ν) → Run World Value
  | 0, _, _ => .unfinished
  | n + 1, scope, some e => eval n scope e
  | _ + 1, _, none => pure .nil

/-- The block of the first case whose value equals that of the subject, or that has none. -/
def select : Nat → RuntimeScope ν → Value → List (Case ν) → Run World (Option (List (Stmt ν)))
  | 0, _, _, _ => .unfinished
  | _ + 1, _, _, [] => pure none
  | _ + 1, _, _, .mk _ none body :: _ => pure (some body)
  | n + 1, scope, subject, .mk _ (some value) body :: rest => do
    let v ← eval n scope value
    let same ← World.ask (·.equal? v subject)
    if same then pure (some body) else select n scope subject rest

/-- **Assignment.** A variable that must not change is refused before the value is evaluated; the
list of an element assignment is found before its index and its value. -/
def assign : Nat → RuntimeScope ν → Expr ν → Expr ν → Run World Unit
  | 0, _, _, _ => .unfinished
  | n + 1, scope, .var _ _ _ name, value => do
    let cell ← lookupCell scope name
    if cell.mutable then
      let v ← eval n scope value
      World.writeCell cell.location v
    else .fail (.immutableAssignment name)
  | n + 1, scope, .element _ _ _ name index, value => do
    let cell ← lookupCell scope name
    let id ← asList (← World.readCell cell.location)
    let index ← asInteger (← eval n scope index)
    let v ← eval n scope value
    storeAt id index v
  | _ + 1, _, _, _ => .fail .invalidReceiver

end

/-! ## §4 Programs -/

/-- Defines functions in the innermost frame. -/
def defineAll (scope : RuntimeScope ν) (functions : List (Function ν)) : RuntimeScope ν :=
  functions.foldl (fun scope f => scope.defineFunction f.name f.arity (.defined f)) scope

/-- The scope every program starts in: the built-in functions and nothing else. -/
def builtins : RuntimeScope ν :=
  Builtin.all.foldl (fun scope b => scope.defineFunction b.name b.arity (.builtin b)) .root

/-- Globals in order, each one in scope of those after it. -/
def initGlobals (n : Nat) : List (Global ν) → Run (Machine ν) Unit
  | [] => pure ()
  | g :: rest => do
    let v ← Machine.inWorld fun scope => evalInitial d n scope g.value
    Machine.declare g.name g.mutable v
    initGlobals n rest

/-- The body of a program: after its globals, its functions are defined and `main` is called. -/
def runMain (n : Nat) (p : Program ν) : Run (Machine ν) Value := do
  initGlobals d n p.globals
  Machine.inWorld fun scope => do
    let scope := defineAll scope p.functions
    let main ← Run.ofExcept ((scope.lookupFunction "main" 0).mapError .undefined)
    invoke d n scope main []

end Disciplined

end Eval

/-- **Running** a program under a discipline, with a bound on the depth of the evaluation. -/
def Program.runUnder {ν : Notes} (d : Eval.Discipline ν) (n : Nat) (p : Program ν) :
    Eval.Run Eval.World Value :=
  Eval.Machine.within Eval.builtins (Eval.runMain d n p)

/-- **Running** a program, with a bound on the depth of the evaluation. -/
def Program.run {ν : Notes} (n : Nat) (p : Program ν) : Eval.Run Eval.World Value :=
  p.runUnder .dynamic n

end DynImp
