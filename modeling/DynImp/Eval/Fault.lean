import DynImp.Scope
import DynImp.Value

/-!
# Runtime errors

Why a run ends without a value.
-/

namespace DynImp.Eval

/-- **Demands.** What kinds of values an operation works on. -/
inductive Demand where
  /-- A condition. -/
  | boolean
  /-- An index. -/
  | integer
  /-- A list to take an element of. -/
  | list
  /-- The argument of a logarithm. -/
  | decimal
  /-- The operands of a sum. -/
  | summands
  /-- The operands of other arithmetic. -/
  | numbers
  /-- A base and its exponent. -/
  | powerOperands
  /-- The operands of an order. -/
  | comparable
  /-- A number and the base to write it in. -/
  | integers
  deriving DecidableEq, Repr

/-- The wording of a demand. -/
def Demand.text : Demand → String
  | boolean => "Boolean"
  | integer => "Integer"
  | list => "List"
  | decimal => "Decimal"
  | summands => "Integer, Decimal or String operands"
  | numbers => "numeric operands"
  | powerOperands => "a numeric base and an Integer exponent"
  | comparable => "comparable operands of one type"
  | integers => "Integer arguments"

/-- **Faults.** Why an evaluation fails. -/
inductive Fault where
  /-- A name that nothing in scope has. -/
  | undefined (e : ScopeError)
  /-- A division by zero, or the inverse of a power that is zero. -/
  | divisionByZero
  /-- An index outside a list. -/
  | indexOutOfBounds (index : Int) (length : Nat)
  /-- An assignment to something that is neither a variable nor an element. -/
  | invalidReceiver
  /-- A list stored in itself or in one of its items. -/
  | cyclicList
  /-- An assignment to a variable that must not change. -/
  | immutableAssignment (name : String)
  /-- Values of the wrong kinds. -/
  | typeMismatch (demand : Demand) (found : List Value.Tag)
  /-- A built-in function with the wrong number of arguments. -/
  | arityMismatch (name : String) (expected found : Nat)
  /-- An exponent beyond the largest count. -/
  | exponentTooLarge (exponent : Int)
  /-- A number without a logarithm. -/
  | noLogarithm (x : Decimal)
  /-- A base that no numeral can be written in. -/
  | invalidBase (base : Int)
  /-- An output that cannot be written to. -/
  | output (reason : String)
  deriving DecidableEq, Repr

/-- The wording of a fault. -/
def Fault.message : Fault → String
  | undefined e => e.message
  | divisionByZero => "Division by zero"
  | indexOutOfBounds index length =>
    "Index " ++ Numeral.signedText 10 index ++ " out of bounds for list of length "
      ++ Numeral.signedText 10 length
  | invalidReceiver => "Invalid assignment receiver"
  | cyclicList => "List cannot contain itself"
  | immutableAssignment name => "Cannot assign to immutable '" ++ name ++ "'"
  | typeMismatch demand found =>
    "Expected " ++ demand.text ++ ", received " ++ " and ".intercalate (found.map (·.text))
  | arityMismatch name expected found =>
    "'" ++ name ++ "' expects " ++ Numeral.signedText 10 expected ++ " arguments, received "
      ++ Numeral.signedText 10 found
  | exponentTooLarge exponent => "Exponent " ++ Numeral.signedText 10 exponent ++ " is too large"
  | noLogarithm x => "Invalid argument: log(" ++ x.text ++ ")"
  | invalidBase base => "Invalid argument: base " ++ Numeral.signedText 10 base
  | output reason => "Failed write output: " ++ reason

end DynImp.Eval
