import DynImp.Scalar

/-!
# Static types

The types a checker knows and the one rule by which one of them may stand for another.
-/

namespace DynImp

/-- **Type.** -/
inductive Ty where
  /-- What accepts everything. -/
  | any
  /-- What accepts the ordered scalars. -/
  | comparable
  | nil
  | boolean
  | integer
  | decimal
  | character
  | string
  /-- A list whose elements are of one type. -/
  | list (element : Ty)
  deriving DecidableEq, Repr

namespace Ty

/-- How a type is written. -/
def text : Ty → String
  | any => "Any"
  | comparable => "Comparable"
  | nil => "Nil"
  | boolean => "Boolean"
  | integer => "Integer"
  | decimal => "Decimal"
  | character => "Character"
  | string => "String"
  | list element => "List<" ++ element.text ++ ">"

/-- The types that have a name of their own.  Lists have none. -/
def named : List Ty := [any, comparable, nil, boolean, integer, decimal, character, string]

/-- The type with a name. -/
def ofName? (name : String) : Option Ty := named.find? fun τ => τ.text = name

/-- The type of a scalar. -/
def ofScalar : Scalar → Ty
  | .nil => nil
  | .boolean _ => boolean
  | .integer _ => integer
  | .decimal _ => decimal
  | .character _ => character
  | .string _ => string

/-- **Ordered types.** The concrete types whose values can be compared. -/
def isOrdered : Ty → Bool
  | integer | decimal | character | string => true
  | _ => false

/-- **Numeric types.** -/
def isNumeric : Ty → Bool
  | integer | decimal => true
  | _ => false

/-- **Assignability.** Whether a value of type `actual` may be stored where `target` is expected. -/
def accepts (target actual : Ty) : Bool :=
  match target with
  | any => true
  | comparable => actual = comparable ∨ actual.isOrdered
  | _ => target = actual

end Ty

/-- **Signature.** What a function takes and what it gives back. -/
structure Signature where
  /-- The types of the parameters in order. -/
  params : List Ty
  /-- The type of the result. -/
  result : Ty
  deriving DecidableEq, Repr

end DynImp
