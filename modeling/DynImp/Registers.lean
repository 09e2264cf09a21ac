import DynImp.Eval.Builtin
import DynImp.Eval.Operators
import DynImp.Form

/-!
# Registers

Values under names, and single operations on them: a desk calculator for the values of
the language.  A name that holds nothing yet reads as the value without content.
-/

namespace DynImp

open Eval

/-- **Registers.** Values by name, the latest first, and the world they live in. -/
structure Registers where
  /-- The values by name. -/
  values : List (String × Value)
  /-- The lists they refer to, and what was printed. -/
  world : World

namespace Registers

/-- **Step.** One operation. -/
inductive Step where
  | put (target : String) (form : Form String)
  /-- Applies an operator to two registers and keeps the result. -/
  | combine (op : BinaryOp) (target left right : String)
  /-- Calls a built-in function and keeps the result. -/
  | call (b : Builtin) (target : String) (args : List (Form String))
  | order (left right : String)
  | equal (left right : String)
  | text (name : String)
  | tag (name : String)
  /-- Whether one register contains the list in another. -/
  | contains (value list : String)
  /-- Replaces an item of the list in a register. -/
  | setItem (list : String) (position : Nat) (value : String)

/-- **Answer.** What an operation yields. -/
inductive Answer where
  | value (form : Form Empty)
  /-- What was printed on the way to the next answer. -/
  | printed (text : String)
  | ordering (o : Ordering)
  | truth (b : Bool)
  | text (s : String)
  /-- The question does not arise. -/
  | nothing
  | fault (e : Fault)
  /-- A list that contains itself has no answer. -/
  | unfinished

/-- No registers. -/
def empty : Registers := ⟨[], .start .recording⟩

/-- The value of a register. -/
def get (r : Registers) (name : String) : Value := (r.values.lookup name).getD .nil

/-- Runs a computation and says what became of it. -/
def observe {α : Type} (r : Registers) (x : Run World α)
    (found : α → Registers → Answer × Registers) : Answer × Registers :=
  match x r.world with
  | (.done a, world) => found a { r with world }
  | (.failed e, world) => (.fault e, { r with world })
  | (.unfinished, world) => (.unfinished, { r with world })

/-- A value as an answer. -/
def answerValue (v : Value) (r : Registers) : Answer × Registers :=
  match Form.ofValue? r.world.heap v with
  | some form => (.value form, r)
  | none => (.unfinished, r)

/-- Keeps a value in a register and answers it. -/
def keep (target : String) (v : Value) (r : Registers) : Answer × Registers :=
  answerValue v { r with values := (target, v) :: r.values }

/-- The value behind a reference. -/
def resolve (r : Registers) (name : String) : Run World Value := pure (r.get name)

/-- One operation, without what it prints. -/
def perform (r : Registers) : Step → Answer × Registers
  | .put target form => r.observe (form.build r.resolve) (keep target)
  | .combine op target left right => r.observe (apply op (r.get left) (r.get right)) (keep target)
  | .call b target args =>
    r.observe (do callBuiltin b (← Form.buildAll r.resolve args)) (keep target)
  | .order left right =>
    r.observe (Run.ofExcept (Eval.order (r.get left) (r.get right))) fun o r => (.ordering o, r)
  | .equal left right =>
    r.observe (World.ask (·.equal? (r.get left) (r.get right))) fun b r => (.truth b, r)
  | .text name => r.observe (World.ask (·.text? (r.get name))) fun s r => (.text s, r)
  | .tag name => (.text (r.get name).tag.text, r)
  | .contains value list =>
    match r.get list with
    | .list id => r.observe (World.ask (·.contains? (r.get value) id)) fun b r => (.truth b, r)
    | .scalar _ => (.nothing, r)
  | .setItem list position value =>
    match r.get list with
    | .list id =>
      r.observe (World.setItem id position (r.get value)) fun _ r => answerValue (r.get list) r
    | .scalar _ => answerValue (r.get list) r

/-- One operation.  What it prints is an answer of its own, before the result. -/
def step (r : Registers) (s : Step) : List Answer × Registers :=
  let (answer, r) := perform { r with world := { r.world with output := .recording } } s
  let printed := r.world.output.written
  (if printed = "" then [answer] else [.printed printed, answer], r)

/-- **Running** operations in order. -/
def run (r : Registers) : List Step → List Answer
  | [] => []
  | s :: rest =>
    let (answers, r) := r.step s
    answers ++ r.run rest

end Registers

end DynImp
