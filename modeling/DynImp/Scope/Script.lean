import DynImp.Scope

/-!
# Scripts of scope operations

A scope together with the entries its variables stand for.  Every definition makes a new
entry, and an entry stays what it is when its name is bound again or its frame is closed;
only a write through a name that resolves to it changes it.
-/

namespace DynImp.Scope

/-- **Variable entry.** What a variable holds in a script. -/
structure VariableEntry where
  id : Nat
  name : String
  mutable : Bool
  /-- What it holds now. -/
  text : String
  deriving DecidableEq, Repr

/-- **Function entry.** What a function name stands for in a script. -/
structure FunctionEntry where
  id : Nat
  name : String
  arity : Nat
  text : String
  deriving DecidableEq, Repr

/-- **Step.** One operation on a scope. -/
inductive Step where
  | push
  | pop
  | defineVariable (name : String) (mutable : Bool) (text : String)
  | defineFunction (name : String) (arity : Nat) (text : String)
  | findVariable (name : String)
  | findFunction (name : String) (arity : Nat)
  | write (name : String) (text : String)
  | entry (id : Nat)
  deriving DecidableEq, Repr

/-- **Answer.** What a step yields. -/
inductive Answer where
  | pushed
  | popped
  | variable (e : VariableEntry)
  | function (e : FunctionEntry)
  | unknown (e : ScopeError)
  | nothing
  deriving DecidableEq, Repr

/-- **Desk.** A scope, the entries of all variables ever defined, and the number of functions
defined. -/
structure Desk where
  scope : Scope Nat FunctionEntry
  entries : List VariableEntry
  /-- How many functions were defined. -/
  functionCount : Nat

namespace Desk

/-- A desk without definitions. -/
def empty : Desk := ⟨.root, [], 0⟩

/-- The entry of a number, as an answer. -/
def show? (d : Desk) (id : Nat) : Answer :=
  match d.entries[id]? with
  | some e => .variable e
  | none => .nothing

/-- One step.  Closing the only frame leaves no desk. -/
def step (d : Desk) : Step → Answer × Option Desk
  | .push => (.pushed, some { d with scope := d.scope.push })
  | .pop => (.popped, d.scope.pop?.map fun scope => { d with scope })
  | .defineVariable name mutable text =>
    let e : VariableEntry := ⟨d.entries.length, name, mutable, text⟩
    (.variable e,
      some { d with scope := d.scope.defineVariable name e.id, entries := d.entries ++ [e] })
  | .defineFunction name arity text =>
    let e : FunctionEntry := ⟨d.functionCount, name, arity, text⟩
    (.function e,
      some { d with
        scope := d.scope.defineFunction name arity e, functionCount := d.functionCount + 1 })
  | .findVariable name =>
    match d.scope.lookupVariable name with
    | .ok id => (d.show? id, some d)
    | .error e => (.unknown e, some d)
  | .findFunction name arity =>
    match d.scope.lookupFunction name arity with
    | .ok e => (.function e, some d)
    | .error e => (.unknown e, some d)
  | .write name text =>
    match d.scope.lookupVariable name with
    | .ok id =>
      let d := { d with entries := d.entries.modify id fun e => { e with text } }
      (d.show? id, some d)
    | .error e => (.unknown e, some d)
  | .entry id => (d.show? id, some d)

/-- **Running a script.** The answers of the steps in order, up to one that leaves no desk. -/
def run (d : Desk) : List Step → List Answer
  | [] => []
  | s :: rest =>
    match d.step s with
    | (answer, some d) => answer :: d.run rest
    | (answer, none) => [answer]

end Desk

end DynImp.Scope
