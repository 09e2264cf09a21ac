import DynImp.Count
import DynImp.Decimal.Arithmetic
import DynImp.Eval.World
import DynImp.Expr

/-!
# Operators on values

What the binary operators do with the values of their operands.  Numbers are combined
with numbers of their own kind only; anything can be added to a string.
-/

namespace DynImp.Eval

/-- Two values of kinds that an operation does not work on. -/
def mismatch (demand : Demand) (a b : Value) : Fault := .typeMismatch demand [a.tag, b.tag]

/-! ## §1 Arithmetic -/

/-- **Sum.** If one side is a string, the texts of both are joined. -/
def add (a b : Value) : Run World Value :=
  match a, b with
  | .string s, _ => do
    let t ← World.ask (·.text? b)
    return .string (s ++ t)
  | _, .string t => do
    let s ← World.ask (·.text? a)
    return .string (s ++ t)
  | .integer i, .integer j => return .integer (i + j)
  | .decimal d, .decimal e => return .decimal (d.add e)
  | _, _ => .fail (mismatch .summands a b)

/-- **Difference.** -/
def subtract (a b : Value) : Except Fault Value :=
  match a, b with
  | .integer i, .integer j => .ok (.integer (i - j))
  | .decimal d, .decimal e => .ok (.decimal (d.sub e))
  | _, _ => .error (mismatch .numbers a b)

/-- **Product.** -/
def multiply (a b : Value) : Except Fault Value :=
  match a, b with
  | .integer i, .integer j => .ok (.integer (i * j))
  | .decimal d, .decimal e => .ok (.decimal (d.mul e))
  | _, _ => .error (mismatch .numbers a b)

/-- **Quotient.** Integers are cut off toward zero, decimals are rounded at the scale of the
dividend. -/
def divide (a b : Value) : Except Fault Value :=
  match a, b with
  | .integer i, .integer j => if j = 0 then .error .divisionByZero else .ok (.integer (i.tdiv j))
  | .decimal d, .decimal e => if e.isZero then .error .divisionByZero else .ok (.decimal (d.div e))
  | _, _ => .error (mismatch .numbers a b)

/-- The inverse of a number. -/
def invert (d : Decimal) : Except Fault Value :=
  if d.isZero then .error .divisionByZero else .ok (.decimal ((Decimal.ofInt 1).quotient d))

/-- **Repeated multiplication.** `acc` multiplied by `base`, `count` times over. -/
def multiplyOnto {α : Type} (times : α → α → α) (base : α) : Nat → α → α
  | 0, acc => acc
  | count + 1, acc => multiplyOnto times base count (times acc base)

/-- **Power.** As many multiplications as the magnitude of the exponent says, which has to be a
count.  A negative exponent gives the inverse of the power, which is a decimal. -/
def power (a b : Value) : Except Fault Value :=
  match b with
  | .integer exponent =>
    match count? exponent.natAbs with
    | none => .error (.exponentTooLarge exponent)
    | some count =>
      match a with
      | .integer base =>
        let result := multiplyOnto (· * ·) base count.toNat 1
        if exponent < 0 then invert (.ofInt result) else .ok (.integer result)
      | .decimal base =>
        let result := multiplyOnto Decimal.times base count.toNat (.ofInt 1)
        if exponent < 0 then invert result else .ok (.decimal result)
      | _ => .error (mismatch .powerOperands a b)
  | _ => .error (mismatch .powerOperands a b)

/-! ## §2 Order -/

/-- **Order.** Two integers, decimals, characters or strings are ordered, and nothing else. -/
def order (a b : Value) : Except Fault Ordering :=
  match a, b with
  | .scalar s, .scalar t =>
    match s.order? t with
    | some o => .ok o
    | none => .error (mismatch .comparable a b)
  | _, _ => .error (mismatch .comparable a b)

/-! ## §3 All operators -/

/-- **Application** of an operator to the values of both operands.  The logical ones are not
among them: they evaluate their right operand only if it matters. -/
def apply (op : BinaryOp) (a b : Value) : Run World Value :=
  match op with
  | .and | .or => .fail (mismatch .boolean a b)
  | .less => do
    let o ← Run.ofExcept (order a b)
    return .boolean (o = .lt)
  | .greater => do
    let o ← Run.ofExcept (order a b)
    return .boolean (o = .gt)
  | .equal => do
    let same ← World.ask (·.equal? a b)
    return .boolean same
  | .notEqual => do
    let same ← World.ask (·.equal? a b)
    return .boolean (!same)
  | .add => add a b
  | .subtract => .ofExcept (subtract a b)
  | .multiply => .ofExcept (multiply a b)
  | .divide => .ofExcept (divide a b)
  | .power => .ofExcept (power a b)

end DynImp.Eval
