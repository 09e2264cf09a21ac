import DynImp.Expr
import DynImp.Grammar.Literal
import DynImp.Grammar.Reader

/-!
# The grammar of expressions

```text
expression     = logical
logical        = comparison     { ("&&" | "||") comparison }
comparison     = additive       { ("<" | ">" | "==" | "!=") additive }
additive       = multiplicative { ("+" | "-") multiplicative }
multiplicative = primary        { ("*" | "/" | "^") primary }
primary        = "NIL" | "TRUE" | "FALSE" | INTEGER | DECIMAL | CHARACTER | STRING
               | "(" expression ")"
               | IDENT [ "[" expression "]" | "(" [ expressions ] ")" ]
               | "[" expressions "]"
expressions    = expression { "," expression }
```

Each production is a reader over the reader of its parts.  The knot is tied by a bound on
the nesting: an expression never nests more deeply than it has tokens.
-/

namespace DynImp

namespace Grammar

open Reader

/-! ## §1 Operator chains -/

/-- The operator of a level that comes next. -/
def operatorAt? (level : Level) : List Token → Option BinaryOp
  | t :: _ =>
    if t.kind = .operator then (BinaryOp.ofSymbol? t.text).filter fun op => op.level = level
    else none
  | [] => none

/-- Extends `left` by every operator of the level that follows, to the left. -/
def chainOnto (level : Level) (operand : Reader (Expr Bare)) :
    Nat → Expr Bare → Reader (Expr Bare)
  | 0, left => pure left
  | bound + 1, left => fun ts =>
    match operatorAt? level ts with
    | none => .ok (left, ts)
    | some op =>
      (do
        let right ← operand
        chainOnto level operand bound (.binary () op left right)) (ts.drop 1)

/-- **Chain.** Operands with operators of one level between them, associated to the left. -/
def chain (level : Level) (bound : Nat) (operand : Reader (Expr Bare)) : Reader (Expr Bare) := do
  let first ← operand
  chainOnto level operand bound first

/-! ## §2 Primaries -/

/-- What may follow a name: an index, arguments, or nothing. -/
def named (bound : Nat) (expression : Reader (Expr Bare)) (offset : Nat) (name : String) :
    Reader (Expr Bare) := do
  if ← accept "[" then
    let index ← expression
    let _ ← expect "]"
    return .element offset () () name index
  else if ← accept "(" then
    if ← accept ")" then return .call offset () () name []
    else
      let args ← separated "," expression bound
      let _ ← expect ")"
      return .call offset () () name args
  else return .var offset () () name

/-- A group, after its opening parenthesis. -/
def grouped (expression : Reader (Expr Bare)) (offset : Nat) : Reader (Expr Bare) := do
  let inner ← expression
  let _ ← require ")" .unterminatedParenthesis
  return .group offset () inner

/-- A list, after its opening bracket. -/
def listed (bound : Nat) (expression : Reader (Expr Bare)) (offset : Nat) :
    Reader (Expr Bare) := do
  let items ← separated "," expression bound
  let _ ← expect "]"
  return .list offset () items

/-- **Primary.** What an operator can be applied to. -/
def primary (bound : Nat) (expression : Reader (Expr Bare)) : Reader (Expr Bare)
  | [] => .error ⟨[], .expectedExpression⟩
  | t :: rest =>
    match t.kind with
    | .identifier =>
      match Token.constant? t.text with
      | some value => .ok (.literal t.offset () value, rest)
      | none => named bound expression t.offset t.text rest
    | .operator =>
      if t.text = "(" then grouped expression t.offset rest
      else if t.text = "[" then listed bound expression t.offset rest
      else .error ⟨t :: rest, .expectedExpression⟩
    | _ =>
      match t.scalar? with
      | some value => .ok (.literal t.offset () value, rest)
      | none => .error ⟨t :: rest, .invalidLiteral⟩

/-! ## §3 Expressions -/

/-- **Expressions** that nest less deeply than the bound. -/
def expression : Nat → Reader (Expr Bare)
  | 0 => refuse .expectedExpression
  | bound + 1 =>
    chain .logical bound <| chain .comparison bound <| chain .additive bound <|
      chain .multiplicative bound <| primary bound (expression bound)

end Grammar

/-- **Reading an expression** from the front of a list of tokens, with what follows it. -/
def Expr.ofTokens (tokens : List Token) : Except Grammar.ParseError (Expr Bare × List Token) :=
  (Grammar.expression (tokens.length + 1) tokens).mapError (·.locate tokens)

end DynImp
