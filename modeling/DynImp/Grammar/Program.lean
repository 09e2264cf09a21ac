import DynImp.Grammar.Expr
import DynImp.Program

/-!
# The grammar of programs

```text
program   = { global ";" } { function }
global    = "VAR" IDENT [ ":" IDENT ] [ "=" expression ]
          | "VAL" IDENT [ ":" IDENT ] "=" expression
          | "LIST" IDENT [ ":" IDENT ] "=" "[" expressions "]"
function  = "FUN" IDENT "(" [ parameter { "," parameter } ] ")" [ ":" IDENT ] "DO" block "END"
parameter = IDENT [ ":" IDENT ]
block     = { statement }
statement = "LET" IDENT [ ":" IDENT ] [ "=" expression ] ";"
          | "IF" expression "DO" block [ "ELSE" block ] "END"
          | "SWITCH" expression { "CASE" expression ":" block } "DEFAULT" block "END"
          | "WHILE" expression "DO" block "END"
          | "RETURN" expression ";"
          | expression [ "=" expression ] ";"
```

As for expressions, each production is a reader over the readers of its parts, and a bound
on the nesting ties the knot.
-/

namespace DynImp

namespace Grammar

open Reader

/-! ## §1 Parts of declarations -/

/-- A written type after a colon, if there is one. -/
def typeName : Reader (Option String) := do
  if ← accept ":" then return some (← identifier) else return none

/-- An initial value after `=`, if there is one. -/
def initialValue (expr : Reader (Expr Bare)) : Reader (Option (Expr Bare)) := do
  if ← accept "=" then return some (← expr) else return none

/-! ## §2 Statements -/

/-- **Block ends.** The words that close a block. -/
def blockEnds : List String := ["END", "ELSE", "CASE", "DEFAULT"]

/-- Whether a block goes on: there is a token, and it does not close the block. -/
def inBlock (ts : List Token) : Bool := !ts.isEmpty && !startsWithAny blockEnds ts

/-- `LET`. -/
def declaration (expr : Reader (Expr Bare)) : Reader (Stmt Bare) := do
  let offset ← expect "LET"
  let name ← identifier
  let type ← typeName
  let value ← initialValue expr
  let _ ← expect ";"
  return .declare offset () name type value

/-- `IF`. -/
def choice (expr : Reader (Expr Bare)) (block : Reader (List (Stmt Bare))) :
    Reader (Stmt Bare) := do
  let _ ← expect "IF"
  let condition ← expr
  let _ ← expect "DO"
  let yes ← block
  -- An `ELSE` without statements is the same as none.
  let no ← if ← accept "ELSE" then block else pure []
  let _ ← expect "END"
  return .choose condition yes no

/-- `CASE`. -/
def valuedCase (expr : Reader (Expr Bare)) (block : Reader (List (Stmt Bare))) :
    Reader (Case Bare) := do
  let offset ← expect "CASE"
  let value ← expr
  let _ ← expect ":"
  let body ← block
  return .mk offset (some value) body

/-- `SWITCH`. -/
def switch (bound : Nat) (expr : Reader (Expr Bare)) (block : Reader (List (Stmt Bare))) :
    Reader (Stmt Bare) := do
  let _ ← expect "SWITCH"
  let subject ← expr
  let cases ← repeatWhile (startsWith "CASE") (valuedCase expr block) bound
  let offset ← require "DEFAULT" .missingDefault
  let body ← block
  let _ ← expect "END"
  return .switch subject (cases ++ [.mk offset none body])

/-- `WHILE`. -/
def loop (expr : Reader (Expr Bare)) (block : Reader (List (Stmt Bare))) : Reader (Stmt Bare) := do
  let _ ← expect "WHILE"
  let condition ← expr
  let _ ← expect "DO"
  let body ← block
  let _ ← expect "END"
  return .loop condition body

/-- `RETURN`. -/
def giveBack (expr : Reader (Expr Bare)) : Reader (Stmt Bare) := do
  let _ ← expect "RETURN"
  let value ← expr
  let _ ← expect ";"
  return .giveBack value

/-- An expression for its effect, or an assignment to it. -/
def simple (expr : Reader (Expr Bare)) : Reader (Stmt Bare) := do
  let first ← expr
  if ← accept "=" then
    let value ← expr
    let _ ← expect ";"
    return .assign first value
  else
    let _ ← expect ";"
    return .perform first

/-- A statement is told by its first word. -/
def statementOf (bound : Nat) (expr : Reader (Expr Bare)) (block : Reader (List (Stmt Bare))) :
    Reader (Stmt Bare) := fun ts =>
  if startsWith "LET" ts then declaration expr ts
  else if startsWith "IF" ts then choice expr block ts
  else if startsWith "SWITCH" ts then switch bound expr block ts
  else if startsWith "WHILE" ts then loop expr block ts
  else if startsWith "RETURN" ts then giveBack expr ts
  else simple expr ts

/-- **Statements** that nest less deeply than the bound. -/
def statement : Nat → Reader (Stmt Bare)
  | 0 => refuse .expectedExpression
  | bound + 1 =>
    statementOf bound (expression bound) (repeatWhile inBlock (statement bound) bound)

/-- **Block.** Statements up to a word that closes the block. -/
def block (bound : Nat) : Reader (List (Stmt Bare)) := repeatWhile inBlock (statement bound) bound

/-! ## §3 Items -/

/-- The words that begin a global. -/
def globalWords : List String := ["VAR", "VAL", "LIST"]

/-- `VAR`. -/
def varGlobal (expr : Reader (Expr Bare)) : Reader (Global Bare) := do
  let offset ← expect "VAR"
  let name ← identifier
  let type ← typeName
  let value ← initialValue expr
  return ⟨offset, (), name, type, true, false, value⟩

/-- `VAL`. -/
def valGlobal (expr : Reader (Expr Bare)) : Reader (Global Bare) := do
  let offset ← expect "VAL"
  let name ← identifier
  let type ← typeName
  let _ ← expect "="
  let value ← expr
  return ⟨offset, (), name, type, false, false, some value⟩

/-- `LIST`. -/
def listGlobal (bound : Nat) (expr : Reader (Expr Bare)) : Reader (Global Bare) := do
  let offset ← expect "LIST"
  let name ← identifier
  let type ← typeName
  let _ ← expect "="
  let opening ← expect "["
  let value ← listed bound expr opening
  return ⟨offset, (), name, type, true, true, some value⟩

/-- **Global**, with the semicolon after it. -/
def global (bound : Nat) : Reader (Global Bare) := do
  let declared ← fun ts =>
    if startsWith "VAR" ts then varGlobal (expression bound) ts
    else if startsWith "VAL" ts then valGlobal (expression bound) ts
    else listGlobal bound (expression bound) ts
  let _ ← expect ";"
  return declared

/-- A parameter. -/
def parameter : Reader Parameter := do
  let name ← identifier
  let type ← typeName
  return ⟨name, type⟩

/-- Parameters, after their opening parenthesis, with the closing one. -/
def parameters (bound : Nat) : Reader (List Parameter) := do
  if ← accept ")" then return []
  else
    let params ← separated "," parameter bound
    let _ ← expect ")"
    return params

/-- **Function.** -/
def function (bound : Nat) : Reader (Function Bare) := do
  let offset ← expect "FUN"
  let name ← identifier
  let _ ← expect "("
  let params ← parameters bound
  let returnType ← typeName
  let _ ← expect "DO"
  let body ← block bound
  let _ ← expect "END"
  return ⟨offset, (), name, params, returnType, body⟩

/-- The end of a program: nothing may follow the functions. -/
def atEnd : Reader Unit := fun ts =>
  match ts with
  | [] => .ok ((), [])
  | _ =>
    if startsWithAny globalWords ts then refuse .globalAfterFunction ts else refuse .expectedItem ts

/-- **Programs** that nest less deeply than the bound. -/
def program (bound : Nat) : Reader (Program Bare) := do
  let globals ← repeatWhile (startsWithAny globalWords) (global bound) bound
  let functions ← repeatWhile (startsWith "FUN") (function bound) bound
  atEnd
  return ⟨globals, functions⟩

end Grammar

/-- **Reading a program** from all of a list of tokens. -/
def Program.ofTokens (tokens : List Token) : Except Grammar.ParseError (Program Bare) :=
  match Grammar.program (tokens.length + 1) tokens with
  | .ok (program, _) => .ok program
  | .error refusal => .error (refusal.locate tokens)

end DynImp
