import DynImp.Expr
import DynImp.Scope
import DynImp.Ty

/-!
# Type errors

Why a program is rejected before it runs, and the notes of one that is not.
-/

namespace DynImp

namespace Typing

/-! ## §1 Bindings -/

/-- **Variable.** A declared variable.  The number tells declarations apart. -/
structure Variable where
  /-- The number of the declaration. -/
  id : Nat
  name : String
  /-- Whether it may be assigned to. -/
  mutable : Bool
  type : Ty
  deriving DecidableEq, Repr

/-- **Callee.** A defined function.  The number tells definitions apart. -/
structure Callee where
  id : Nat
  name : String
  /-- What it takes and gives back. -/
  signature : Signature
  deriving DecidableEq, Repr

/-- How many arguments a function takes. -/
def Callee.arity (f : Callee) : Nat := f.signature.params.length

/-! ## §2 Faults -/

/-- **Faults.** Why an expression, statement or item is rejected. -/
inductive Fault where
  | undefined (e : ScopeError)
  | unknownType (name : String)
  /-- A value of one type where another is expected. -/
  | notAssignable (target actual : Ty)
  /-- A statement that is an expression other than a call. -/
  | notACall
  /-- An assignment to something that is neither a variable nor an element. -/
  | notAReceiver
  /-- An assignment to a variable that must not change. -/
  | immutableAssignment (name : String)
  | conditionNotBoolean (actual : Ty)
  /-- A case without a value before the last one. -/
  | misplacedDefault
  /-- A declaration with neither a type nor an initial value. -/
  | untyped (name : String)
  /-- An operator whose operands it does not take. -/
  | invalidOperands (op : BinaryOp) (left right : Ty)
  | indexNotInteger (actual : Ty)
  /-- An index into something that is not a list. -/
  | notAList (name : String)
  /-- Parentheses around anything but a binary expression. -/
  | redundantGroup
  | emptyList
  /-- A program without `main`. -/
  | missingMain
  deriving DecidableEq, Repr

/-- The wording of a fault. -/
def Fault.message : Fault → String
  | .undefined e => e.message
  | .unknownType name => "Unknown type '" ++ name ++ "'"
  | .notAssignable target actual => actual.text ++ " is not assignable to " ++ target.text
  | .notACall => "Expression statement must be a function call"
  | .notAReceiver => "Assignment receiver must be an access expression"
  | .immutableAssignment name => "Cannot assign to immutable '" ++ name ++ "'"
  | .conditionNotBoolean actual => "Condition must be Boolean, found " ++ actual.text
  | .misplacedDefault => "Only the last case may omit its value"
  | .untyped name => "'" ++ name ++ "' needs a type or an initializer"
  | .invalidOperands op left right =>
    "Invalid operands for '" ++ op.symbol ++ "': " ++ left.text ++ " and " ++ right.text
  | .indexNotInteger actual => "Index must be Integer, found " ++ actual.text
  | .notAList name => "'" ++ name ++ "' is not a list"
  | .redundantGroup => "Group must wrap a binary expression"
  | .emptyList => "List literal must hold at least one element"
  | .missingMain => "Missing 'main/0' function"

/-- **Type error.** A fault at a byte of the text. -/
structure TypeError where
  /-- The byte at which the offending part begins. -/
  offset : Nat
  fault : Fault
  deriving DecidableEq, Repr

end Typing

/-- A tree whose expressions carry their types and whose names carry what they resolve to. -/
abbrev Typed : Notes := ⟨Ty, Typing.Variable, Typing.Callee⟩

end DynImp
