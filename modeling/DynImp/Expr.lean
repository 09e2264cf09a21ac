import DynImp.Scalar

/-!
# Expressions

Expression trees.  A tree is parametrised by what its nodes are annotated with, so that
the tree of a text and the tree of a checked program have one shape and differ in their
notes alone.
-/

namespace DynImp

/-! ## §1 Operators -/

/-- **Binding levels.** How tightly a binary operator binds, loosest first. -/
inductive Level where
  | logical
  | comparison
  | additive
  | multiplicative
  deriving DecidableEq, Repr

/-- **Binary operators.** -/
inductive BinaryOp where
  | and
  | or
  | less
  | greater
  | equal
  | notEqual
  | add
  | subtract
  | multiply
  | divide
  | power
  deriving DecidableEq, Repr

namespace BinaryOp

/-- How an operator is written. -/
def symbol : BinaryOp → String
  | and => "&&"
  | or => "||"
  | less => "<"
  | greater => ">"
  | equal => "=="
  | notEqual => "!="
  | add => "+"
  | subtract => "-"
  | multiply => "*"
  | divide => "/"
  | power => "^"

/-- All operators. -/
def all : List BinaryOp :=
  [and, or, less, greater, equal, notEqual, add, subtract, multiply, divide, power]

/-- The operator that is written like this. -/
def ofSymbol? (s : String) : Option BinaryOp := all.find? fun op => op.symbol = s

/-- The level of an operator.  All of them associate to the left, `^` too. -/
def level : BinaryOp → Level
  | and | or => .logical
  | less | greater | equal | notEqual => .comparison
  | add | subtract => .additive
  | multiply | divide | power => .multiplicative

end BinaryOp

/-! ## §2 Notes -/

/-- **Notes.** What the nodes of a tree are annotated with. -/
structure Notes where
  /-- The note on every expression. -/
  type : Type
  /-- The note where a variable is declared or used. -/
  binding : Type
  /-- The note where a function is defined or called. -/
  callee : Type

/-- A tree as it is written, without notes. -/
abbrev Bare : Notes := ⟨Unit, Unit, Unit⟩

/-! ## §3 Trees -/

/-- **Expression.** Each node but the binary one carries the offset of its first token; a binary
node begins where its left operand does. -/
inductive Expr (ν : Notes) where
  | literal (offset : Nat) (type : ν.type) (value : Scalar)
  | group (offset : Nat) (type : ν.type) (inner : Expr ν)
  /-- Two operands and an operator between them. -/
  | binary (type : ν.type) (op : BinaryOp) (left right : Expr ν)
  | var (offset : Nat) (type : ν.type) (binding : ν.binding) (name : String)
  /-- An element of the list in a variable. -/
  | element (offset : Nat) (type : ν.type) (binding : ν.binding) (name : String) (index : Expr ν)
  | call (offset : Nat) (type : ν.type) (callee : ν.callee) (name : String) (args : List (Expr ν))
  | list (offset : Nat) (type : ν.type) (items : List (Expr ν))

namespace Expr

variable {ν : Notes}

/-- The byte at which an expression begins. -/
def offset : Expr ν → Nat
  | literal offset .. | group offset .. | var offset .. | element offset .. | call offset ..
  | list offset .. => offset
  | binary _ _ left _ => left.offset

/-- The type note of an expression. -/
def type : Expr ν → ν.type
  | literal _ type _ | group _ type _ | binary type _ _ _ | var _ type _ _ | element _ type _ _ _
  | call _ type _ _ _ | list _ type _ => type

/-! ## §4 Display -/

mutual

/-- **Display.** The tree as an S-expression: operators and calls in front of their operands in
parentheses, groups marked as such, lists and indices in brackets. -/
def display : Expr ν → String
  | literal _ _ value => value.quoted
  | group _ _ inner => "(group " ++ inner.display ++ ")"
  | binary _ op left right =>
    "(" ++ op.symbol ++ " " ++ left.display ++ " " ++ right.display ++ ")"
  | var _ _ _ name => name
  | element _ _ _ name index => name ++ "[" ++ index.display ++ "]"
  | call _ _ _ name args => "(call " ++ name ++ displayArgs args ++ ")"
  | list _ _ items => "[" ++ displayItems items ++ "]"

/-- Every argument after a space. -/
def displayArgs : List (Expr ν) → String
  | [] => ""
  | arg :: args => " " ++ arg.display ++ displayArgs args

/-- The items of a list with spaces between them. -/
def displayItems : List (Expr ν) → String
  | [] => ""
  | item :: items => item.display ++ displayArgs items

end

end Expr

end DynImp
