import DynImp.Expr

/-!
# Programs

Statements and the two kinds of top-level items.  Expressions and statements never stand
in each other's place: operands are always expressions and bodies always lists of
statements.
-/

namespace DynImp

mutual

/-- **Statement.** -/
inductive Stmt (ν : Notes) where
  /-- An expression for its effect. -/
  | perform (e : Expr ν)
  /-- `LET`: a new variable in the block. -/
  | declare (offset : Nat) (binding : ν.binding) (name : String) (typeName : Option String)
      (value : Option (Expr ν))
  /-- A value is stored in a variable or list element. -/
  | assign (receiver value : Expr ν)
  /-- `IF`: one of two blocks. -/
  | choose (condition : Expr ν) (yes no : List (Stmt ν))
  /-- `SWITCH`: the block of the first case that applies. -/
  | switch (subject : Expr ν) (cases : List (Case ν))
  /-- `WHILE`: a block as long as a condition holds. -/
  | loop (condition : Expr ν) (body : List (Stmt ν))
  /-- `RETURN`: the enclosing function is left with a value. -/
  | giveBack (value : Expr ν)

/-- **Case.** A `CASE` with its value, or a `DEFAULT` without one. -/
inductive Case (ν : Notes) where
  | mk (offset : Nat) (value : Option (Expr ν)) (body : List (Stmt ν))

end

namespace Case

variable {ν : Notes}

/-- The byte at which the case begins. -/
def offset : Case ν → Nat
  | mk offset _ _ => offset

/-- The value of a `CASE`. -/
def value : Case ν → Option (Expr ν)
  | mk _ value _ => value

/-- The block of the case. -/
def body : Case ν → List (Stmt ν)
  | mk _ _ body => body

end Case

/-- **Global.** A variable at the top level. -/
structure Global (ν : Notes) where
  /-- The byte at which the declaration begins. -/
  offset : Nat
  binding : ν.binding
  name : String
  /-- The written type; of a list that of its elements. -/
  typeName : Option String
  /-- Whether it may be assigned to. -/
  mutable : Bool
  isList : Bool
  value : Option (Expr ν)

/-- **Parameter.** A name and its written type. -/
structure Parameter where
  name : String
  typeName : Option String
  deriving DecidableEq, Repr

/-- **Function.** A named body with parameters. -/
structure Function (ν : Notes) where
  /-- The byte at which the definition begins. -/
  offset : Nat
  callee : ν.callee
  name : String
  params : List Parameter
  returnTypeName : Option String
  body : List (Stmt ν)

/-- How many parameters a function has.  Functions of one name are told apart by this number. -/
def Function.arity {ν : Notes} (f : Function ν) : Nat := f.params.length

/-- **Program.** Globals, then functions. -/
structure Program (ν : Notes) where
  globals : List (Global ν)
  functions : List (Function ν)

end DynImp
