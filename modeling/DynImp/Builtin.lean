import DynImp.Ty

/-!
# Built-in functions

The functions every program can call without defining them.
-/

namespace DynImp

/-- **Built-in function.** -/
inductive Builtin where
  /-- Writes a value and a line break to the output. -/
  | print
  /-- The natural logarithm. -/
  | log
  /-- An integer as a numeral in a base from 2 to 36. -/
  | converter
  deriving DecidableEq, Repr

namespace Builtin

/-- All built-in functions, in the order of their definition. -/
def all : List Builtin := [print, log, converter]

/-- The name by which a program calls the function. -/
def name : Builtin → String
  | print => "print"
  | log => "log"
  | converter => "converter"

/-- What the function takes and gives back. -/
def signature : Builtin → Signature
  | print => ⟨[.any], .nil⟩
  | log => ⟨[.decimal], .decimal⟩
  | converter => ⟨[.integer, .integer], .string⟩

/-- How many arguments the function takes. -/
def arity (b : Builtin) : Nat := b.signature.params.length

end Builtin

end DynImp
