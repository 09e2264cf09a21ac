import DynImp.Builtin
import DynImp.Count
import DynImp.Decimal.Logarithm
import DynImp.Eval.World

/-!
# Calling built-in functions

The number of arguments is checked first, then their kinds, then their values.
-/

namespace DynImp.Eval

/-- `print`: the text of a value and a line break go to the output. -/
def print (v : Value) : Run World Value := do
  let text ← World.ask (·.text? v)
  World.emit (text ++ "\n")
  return .nil

/-- `log`: the natural logarithm of a decimal. -/
def log (v : Value) : Except Fault Value :=
  match v with
  | .decimal x =>
    match x.log? with
    | some y => .ok (.decimal y)
    | none => .error (.noLogarithm x)
  | _ => .error (.typeMismatch .decimal [v.tag])

/-- Whether numerals can be written in a base: it has two digits at least, and no more than there
are characters for. -/
def isBase (base : UInt32) : Bool := 2 ≤ base ∧ base ≤ 36

/-- `converter`: an integer as a numeral in a base. -/
def converter (number base : Value) : Except Fault Value :=
  match number, base with
  | .integer i, .integer b =>
    match (b.toNat?.bind count?).filter isBase with
    | some radix => .ok (.string (Numeral.signedText radix.toNat i))
    | none => .error (.invalidBase b)
  | _, _ => .error (.typeMismatch .integers [number.tag, base.tag])

/-- **Calls** of a built-in function with evaluated arguments. -/
def callBuiltin (b : Builtin) (args : List Value) : Run World Value :=
  match b, args with
  | .print, [v] => print v
  | .log, [v] => .ofExcept (log v)
  | .converter, [number, base] => .ofExcept (converter number base)
  | _, _ => .fail (.arityMismatch b.name b.arity args.length)

end DynImp.Eval
