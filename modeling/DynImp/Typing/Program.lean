import DynImp.Builtin
import DynImp.Program
import DynImp.Typing.Expr

/-!
# Typing programs

Statements are checked in order in a scope that grows with every declaration.  A block
has a frame of its own, and a function body starts with its parameters in one.  A
function is in scope from its own body on, so it may call itself and every function
defined before it.
-/

namespace DynImp

namespace Typing

/-! ## §1 Environments -/

/-- **Environment.** What is in scope, and the number for the next declaration. -/
structure Env where
  scope : StaticScope
  fresh : Nat

namespace Env

/-- Declares a variable in the innermost block. -/
def declare (env : Env) (name : String) (mutable : Bool) (type : Ty) : Variable × Env :=
  let declared : Variable := ⟨env.fresh, name, mutable, type⟩
  (declared, ⟨env.scope.defineVariable name declared, env.fresh + 1⟩)

/-- Defines a function in the innermost block. -/
def define (env : Env) (name : String) (signature : Signature) : Callee × Env :=
  let defined : Callee := ⟨env.fresh, name, signature⟩
  (defined, ⟨env.scope.defineFunction name defined.arity defined, env.fresh + 1⟩)

/-- Enters a block. -/
def enter (env : Env) : Env := { env with scope := env.scope.push }

/-- Leaves a block that was entered from `env` and is now at `inner`. -/
def leave (env inner : Env) : Env := { env with fresh := inner.fresh }

/-- The environment every program starts in: the built-in functions and nothing else. -/
def initial : Env :=
  Builtin.all.foldl (fun env b => (env.define b.name b.signature).2) ⟨.root, 0⟩

end Env

/-! ## §2 Declarations -/

/-- The type that a written name stands for, if one is written. -/
def resolveType (offset : Nat) : Option String → Except TypeError (Option Ty)
  | none => return none
  | some name =>
    match Ty.ofName? name with
    | some type => return some type
    | none => throw ⟨offset, .unknownType name⟩

/-- **New variables.** The type of a variable, and its initial value with notes: the declared
type, which the value has to fit, or else the type of the value. -/
def inferInitial (Γ : StaticScope) (offset : Nat) (name : String) (declared : Option Ty)
    (value : Option (Expr Bare)) : Except TypeError (Ty × Option (Expr Typed)) :=
  match declared, value with
  | some target, some value => do
    let value ← inferFor Γ target value
    return (target, some value)
  | some target, none => return (target, none)
  | none, some value => do
    let value ← infer Γ value
    return (value.type, some value)
  | none, none => throw ⟨offset, .untyped name⟩

/-! ## §3 Statements -/

mutual

/-- **Statements.** The statement with its notes, in a function that returns a `result`. -/
def checkStmt (result : Ty) : Env → Stmt Bare → Except TypeError (Stmt Typed × Env)
  | env, .perform e => do
    match e with
    | .call .. =>
      let e ← infer env.scope e
      return (.perform e, env)
    | _ => throw ⟨e.offset, .notACall⟩
  | env, .declare offset _ name typeName value => do
    let declared ← resolveType offset typeName
    let (type, value) ← inferInitial env.scope offset name declared value
    let (binding, env) := env.declare name true type
    return (.declare offset binding name typeName value, env)
  | env, .assign receiver value => do
    let receiver ← inferReceiver env.scope receiver
    let value ← inferFor env.scope receiver.type value
    return (.assign receiver value, env)
  | env, .choose condition yes no => do
    let condition ← inferCondition env.scope condition
    let (yes, inner) ← checkBlock result env.enter yes
    let env := env.leave inner
    let (no, inner) ← checkBlock result env.enter no
    return (.choose condition yes no, env.leave inner)
  | env, .switch subject cases => do
    let subject ← infer env.scope subject
    let (cases, env) ← checkCases result subject.type env cases
    return (.switch subject cases, env)
  | env, .loop condition body => do
    let condition ← inferCondition env.scope condition
    let (body, inner) ← checkBlock result env.enter body
    return (.loop condition body, env.leave inner)
  | env, .giveBack value => do
    let inferred ← infer env.scope value
    requireAssignable result inferred.type value.offset
    return (.giveBack inferred, env)

/-- Statements in order, in the innermost block. -/
def checkBlock (result : Ty) : Env → List (Stmt Bare) → Except TypeError (List (Stmt Typed) × Env)
  | env, [] => return ([], env)
  | env, s :: rest => do
    let (s, env) ← checkStmt result env s
    let (rest, env) ← checkBlock result env rest
    return (s :: rest, env)

/-- The cases of a `SWITCH` on a value of type `subject`, each in a block of its own.  Only the
last one may lack a value. -/
def checkCases (result subject : Ty) :
    Env → List (Case Bare) → Except TypeError (List (Case Typed) × Env)
  | env, [] => return ([], env)
  | env, .mk offset value body :: rest => do
    let value ← match value with
      | some value => do
        let inferred ← infer env.scope value
        requireAssignable subject inferred.type value.offset
        pure (some inferred)
      | none => if rest.isEmpty then pure none else throw ⟨offset, .misplacedDefault⟩
    let (body, inner) ← checkBlock result env.enter body
    let (rest, env) ← checkCases result subject (env.leave inner) rest
    return (.mk offset value body :: rest, env)

end

/-! ## §4 Items -/

/-- A global. -/
def checkGlobal (env : Env) (g : Global Bare) : Except TypeError (Global Typed × Env) := do
  let written ← resolveType g.offset g.typeName
  let declared := if g.isList then written.map .list else written
  let (type, value) ← inferInitial env.scope g.offset g.name declared g.value
  let (binding, env) := env.declare g.name g.mutable type
  return (⟨g.offset, binding, g.name, g.typeName, g.mutable, g.isList, value⟩, env)

/-- The types of parameters; one that is not written is any. -/
def resolveParams (offset : Nat) : List Parameter → Except TypeError (List Ty)
  | [] => return []
  | p :: rest => do
    let written ← resolveType offset p.typeName
    let types ← resolveParams offset rest
    return written.getD .any :: types

/-- Declares parameters in the innermost block. -/
def declareParams (env : Env) : List Parameter → List Ty → Env
  | p :: params, type :: types => declareParams (env.declare p.name true type).2 params types
  | _, _ => env

/-- A function.  It is defined before its body is checked. -/
def checkFunction (env : Env) (f : Function Bare) : Except TypeError (Function Typed × Env) := do
  let params ← resolveParams f.offset f.params
  let written ← resolveType f.offset f.returnTypeName
  let result := written.getD .nil
  -- The definition outlives the body, the declarations in the body do not.
  let (callee, env) := env.define f.name ⟨params, result⟩
  let (body, inner) ← checkBlock result (declareParams env.enter f.params params) f.body
  return (⟨f.offset, callee, f.name, f.params, f.returnTypeName, body⟩, env.leave inner)

/-- Items in order. -/
def checkEach {α β : Type} (check : Env → α → Except TypeError (β × Env)) :
    Env → List α → Except TypeError (List β × Env)
  | env, [] => return ([], env)
  | env, a :: rest => do
    let (b, env) ← check env a
    let (rest, env) ← checkEach check env rest
    return (b :: rest, env)

/-- The byte at which the first `main` without parameters begins, 0 if there is none. -/
def mainOffset {ν : Notes} (functions : List (Function ν)) : Nat :=
  ((functions.find? fun f => f.name = "main" ∧ f.params = []).map (·.offset)).getD 0

end Typing

/-- **Checking.** The program with its notes.  It has to define `main` without parameters, and the
one in force has to give back an integer. -/
def Program.check (p : Program Bare) : Except Typing.TypeError (Program Typed) := do
  let (globals, env) ← Typing.checkEach Typing.checkGlobal .initial p.globals
  let (functions, env) ← Typing.checkEach Typing.checkFunction env p.functions
  match env.scope.findFunction "main" 0 with
  | none => throw ⟨0, .missingMain⟩
  | some main =>
    Typing.requireAssignable .integer main.signature.result (Typing.mainOffset p.functions)
    return ⟨globals, functions⟩

end DynImp
