import DynImp.Form
import DynImp.Source

/-!
# Sessions

Statements and expressions run one at a time in a scope that stays, unchecked.  A fault
ends the statement it arises in and nothing else: what was stored, declared and printed
before it remains.
-/

namespace DynImp

open Eval

/-- **Session.** The names and the world between two steps. -/
abbrev Session := Machine Bare

namespace Session

/-- **Step.** One request. -/
inductive Step where
  | push
  | pop
  | functions (text : String)
  | declare (name : String) (mutable : Bool) (form : Form String)
  | exec (text : String)
  | eval (text : String)
  | call (name : String) (arity : Nat) (args : List (Form String))
  | inspect (name : String)

/-- **Result** of a statement or expression. -/
inductive Result where
  | next
  | returned (form : Form Empty)
  | value (form : Form Empty)
  | fault (e : Fault)
  /-- The bound on the depth was reached. -/
  | unfinished

/-- **Answer** to a step. -/
inductive Answer where
  | pushed
  | popped
  /-- So many functions were defined. -/
  | defined (count : Nat)
  | nothing
  | results (rs : List Result)
  | result (r : Result)
  /-- A variable: its name, whether it may change, and its value. -/
  | inspected (name : String) (mutable : Bool) (form : Form Empty)
  | unknown (e : ScopeError)
  | rejected (e : Source.Failure)

/-- A session with the built-in functions and nothing else. -/
def start (output : Output) : Session := ⟨builtins, .start output⟩

/-- The value behind a reference: that of a variable, nothing if there is none. -/
def resolve (scope : RuntimeScope Bare) (name : String) : Run World Value :=
  match scope.findVariable name with
  | some cell => World.readCell cell.location
  | none => pure .nil

/-- The result of a computation that ends with a value. -/
def resultOf {α : Type} (found : α → World → Result) (outcome : Outcome Fault α) (w : World) :
    Result :=
  match outcome with
  | .done a => found a w
  | .failed e => .fault e
  | .unfinished => .unfinished

/-- A value written out. -/
def written (wrap : Form Empty → Result) (v : Value) (w : World) : Result :=
  match Form.ofValue? w.heap v with
  | some form => wrap form
  | none => .unfinished

/-- How a statement was left. -/
def flowResult (flow : Flow) (w : World) : Result :=
  match flow with
  | .next => .next
  | .returned v => written .returned v w

/-- Runs a computation on the world and gives its value. -/
def evaluate (s : Session) (x : RuntimeScope Bare → Run World Value) : Result × Session :=
  let (outcome, s) := Machine.inWorld x s
  (resultOf (written .value) outcome s.world, s)

/-- Executes statements one by one; each of them starts where the one before it ended, in
whatever way. -/
def execEach (n : Nat) (s : Session) : List (Stmt Bare) → List Result × Session
  | [] => ([], s)
  | stmt :: rest =>
    let (outcome, s) := Eval.exec .dynamic n stmt s
    let result := resultOf flowResult outcome s.world
    let (results, s) := execEach n s rest
    (result :: results, s)

/-- The statements that a text holds: the body of a function around it. -/
def statements (text : String) : Except Source.Failure (List (Stmt Bare)) :=
  match Source.parse ("FUN body() DO " ++ text ++ " END") with
  | .error e => .error e
  | .ok p => .ok ((p.functions.head?.map (·.body)).getD [])

/-- The expression that a text begins with. -/
def expression (text : String) : Except Source.Failure (Expr Bare) :=
  match Token.scan text with
  | .error e => .error (.scan e)
  | .ok tokens =>
    match Expr.ofTokens tokens with
    | .error e => .error (.parse e)
    | .ok (e, _) => .ok e

/-- **One step**, with a bound on the depth of evaluations.  Closing the only frame leaves no
session. -/
def step (n : Nat) (s : Session) : Step → Answer × Option Session
  | .push => (.pushed, some { s with scope := s.scope.push })
  | .pop => (.popped, s.scope.pop?.map fun scope => { s with scope })
  | .functions text =>
    match Source.parse text with
    | .error e => (.rejected e, some s)
    | .ok p => (.defined p.functions.length, some { s with scope := defineAll s.scope p.functions })
  | .declare name mutable form =>
    let declaration : Run (Machine Bare) Unit := do
      let v ← Machine.inWorld fun scope => form.build (resolve scope)
      Machine.declare name mutable v
    (.nothing, some (declaration s).2)
  | .exec text =>
    match statements text with
    | .error e => (.rejected e, some s)
    | .ok body =>
      let (results, s) := execEach n s body
      (.results results, some s)
  | .eval text =>
    match expression text with
    | .error e => (.rejected e, some s)
    | .ok e =>
      let (result, s) := s.evaluate fun scope => Eval.eval .dynamic n scope e
      (.result result, some s)
  | .call name arity args =>
    match s.scope.lookupFunction name arity with
    | .error e => (.unknown e, some s)
    | .ok callable =>
      let (result, s) := s.evaluate fun scope => do
        invoke .dynamic n scope callable (← Form.buildAll (resolve scope) args)
      (.result result, some s)
  | .inspect name =>
    match s.scope.lookupVariable name with
    | .error e => (.unknown e, some s)
    | .ok cell =>
      match Form.ofValue? s.world.heap (s.world.cells.getD cell.location .nil) with
      | some form => (.inspected name cell.mutable form, some s)
      | none => (.result .unfinished, some s)

/-- **Running** steps in order, up to one that leaves no session.  Each answer comes with what was
printed on the way to it. -/
def run (n : Nat) (s : Session) : List Step → List (String × Answer)
  | [] => []
  | request :: rest =>
    let output := { s.world.output with written := "" }
    match step n { s with world := { s.world with output } } request with
    | (answer, some s) => (s.world.output.written, answer) :: run n s rest
    | (answer, none) => [("", answer)]

end Session

end DynImp
