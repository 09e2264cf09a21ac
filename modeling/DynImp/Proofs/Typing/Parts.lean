import DynImp.Program

/-!
# Parts of programs

All expressions and all statements that a tree is made of, for conditions on programs that
look at every one of them.
-/

namespace DynImp

variable {ν : Notes}

/-! ## §1 Expressions -/

mutual

/-- An expression and all expressions in it. -/
def Expr.parts : Expr ν → List (Expr ν)
  | .literal o τ s => [.literal o τ s]
  | .group o τ inner => .group o τ inner :: inner.parts
  | .binary τ op left right => .binary τ op left right :: (left.parts ++ right.parts)
  | .var o τ x name => [.var o τ x name]
  | .element o τ x name index => .element o τ x name index :: index.parts
  | .call o τ f name args => .call o τ f name args :: Expr.allParts args
  | .list o τ items => .list o τ items :: Expr.allParts items

/-- Expressions and all expressions in them. -/
def Expr.allParts : List (Expr ν) → List (Expr ν)
  | [] => []
  | e :: rest => e.parts ++ Expr.allParts rest

end

/-! ## §2 Statements -/

mutual

/-- A statement and all statements in it. -/
def Stmt.parts : Stmt ν → List (Stmt ν)
  | .choose condition yes no =>
    .choose condition yes no :: (Stmt.blockParts yes ++ Stmt.blockParts no)
  | .switch subject cases => .switch subject cases :: Stmt.casesParts cases
  | .loop condition body => .loop condition body :: Stmt.blockParts body
  | .perform e => [.perform e]
  | .declare o x name typeName value => [.declare o x name typeName value]
  | .assign receiver value => [.assign receiver value]
  | .giveBack value => [.giveBack value]

/-- The statements of a block and all statements in them. -/
def Stmt.blockParts : List (Stmt ν) → List (Stmt ν)
  | [] => []
  | s :: rest => s.parts ++ Stmt.blockParts rest

/-- The statements of all cases and all statements in them. -/
def Stmt.casesParts : List (Case ν) → List (Stmt ν)
  | [] => []
  | .mk _ _ body :: rest => Stmt.blockParts body ++ Stmt.casesParts rest

end

/-- The expressions that may stand in a statement, with all expressions in them. -/
def Expr.someParts : Option (Expr ν) → List (Expr ν)
  | none => []
  | some e => e.parts

mutual

/-- All expressions in a statement. -/
def Stmt.exprs : Stmt ν → List (Expr ν)
  | .perform e => e.parts
  | .declare _ _ _ _ value => Expr.someParts value
  | .assign receiver value => receiver.parts ++ value.parts
  | .choose condition yes no => condition.parts ++ (Stmt.blockExprs yes ++ Stmt.blockExprs no)
  | .switch subject cases => subject.parts ++ Stmt.casesExprs cases
  | .loop condition body => condition.parts ++ Stmt.blockExprs body
  | .giveBack value => value.parts

/-- All expressions in the statements of a block. -/
def Stmt.blockExprs : List (Stmt ν) → List (Expr ν)
  | [] => []
  | s :: rest => s.exprs ++ Stmt.blockExprs rest

/-- All expressions in cases, in their values and in their blocks. -/
def Stmt.casesExprs : List (Case ν) → List (Expr ν)
  | [] => []
  | .mk _ value body :: rest =>
    Expr.someParts value ++ (Stmt.blockExprs body ++ Stmt.casesExprs rest)

end

/-! ## §3 Programs -/

/-- **Local variable.** What a `LET` declares. -/
structure Local (ν : Notes) where
  name : String
  binding : ν.binding
  value : Option (Expr ν)

/-- The variable that a statement declares. -/
def Stmt.local? : Stmt ν → Option (Local ν)
  | .declare _ binding name _ value => some ⟨name, binding, value⟩
  | _ => none

/-- The operands of a power. -/
def Expr.power? : Expr ν → Option (Expr ν × Expr ν)
  | .binary _ .power left right => some (left, right)
  | _ => none

namespace Program

/-- All expressions of a program. -/
def exprs (p : Program ν) : List (Expr ν) :=
  p.globals.flatMap (fun g => Expr.someParts g.value) ++
    p.functions.flatMap fun f => Stmt.blockExprs f.body

/-- All statements of a program. -/
def stmts (p : Program ν) : List (Stmt ν) := p.functions.flatMap fun f => Stmt.blockParts f.body

/-- All local variables of a program but its parameters. -/
def locals (p : Program ν) : List (Local ν) := p.stmts.filterMap Stmt.local?

/-- The operands of all powers of a program. -/
def powers (p : Program ν) : List (Expr ν × Expr ν) := p.exprs.filterMap Expr.power?

theorem mem_locals {p : Program ν} {o : Nat} {x : ν.binding} {name : String}
    {typeName : Option String} {value : Option (Expr ν)}
    (h : .declare o x name typeName value ∈ p.stmts) : ⟨name, x, value⟩ ∈ p.locals :=
  List.mem_filterMap.mpr ⟨_, h, rfl⟩

theorem mem_powers {p : Program ν} {τ : ν.type} {left right : Expr ν}
    (h : .binary τ .power left right ∈ p.exprs) : (left, right) ∈ p.powers :=
  List.mem_filterMap.mpr ⟨_, h, rfl⟩

end Program

end DynImp
