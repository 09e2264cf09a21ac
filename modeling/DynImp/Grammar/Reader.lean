import DynImp.Token

/-!
# Reading token lists

What the grammar is written in: a reader takes tokens from the front of a list and
returns what it made of them together with the rest, or it refuses.  A refusal names the
tokens from the offending one on; where that lies in the text is worked out once, when
the whole list is known.
-/

namespace DynImp.Grammar

/-! ## §1 Refusals -/

/-- **Reasons.** Why a list of tokens is refused. -/
inductive Reason where
  /-- A certain keyword or mark has to stand here. -/
  | expected (word : String)
  | expectedIdentifier
  | expectedExpression
  | expectedItem
  /-- A global stands after the first function. -/
  | globalAfterFunction
  /-- A `SWITCH` ends without its `DEFAULT`. -/
  | missingDefault
  | unterminatedParenthesis
  /-- A literal has no value. -/
  | invalidLiteral
  deriving DecidableEq, Repr

/-- The wording of a reason. -/
def Reason.message : Reason → String
  | .expected word => "Expected '" ++ word ++ "'"
  | .expectedIdentifier => "Expected identifier"
  | .expectedExpression => "Expected expression"
  | .expectedItem => "Expected VAR, VAL, LIST or FUN"
  | .globalAfterFunction => "Globals must be declared before functions"
  | .missingDefault => "SWITCH requires a DEFAULT case"
  | .unterminatedParenthesis => "Unterminated parenthesis"
  | .invalidLiteral => "Invalid literal"

/-- **Refusal.** The tokens from the offending one on, and the reason. -/
structure Refusal where
  /-- The tokens that were not taken. -/
  rest : List Token
  reason : Reason
  deriving DecidableEq, Repr

/-- A refusal at a byte of the text. -/
structure ParseError where
  /-- The byte at which the offending token begins. -/
  offset : Nat
  reason : Reason
  deriving DecidableEq, Repr

/-- A refusal points at the offending token, or just past the last one if the list is over. -/
def Refusal.locate (tokens : List Token) (r : Refusal) : ParseError :=
  match r.rest with
  | t :: _ => ⟨t.offset, r.reason⟩
  | [] => ⟨Token.endOf tokens, r.reason⟩

/-! ## §2 Readers -/

/-- **Reader.** Takes tokens from the front of a list. -/
def Reader (α : Type) : Type := List Token → Except Refusal (α × List Token)

instance : Monad Reader where
  pure a := fun ts => .ok (a, ts)
  bind x f := fun ts =>
    match x ts with
    | .ok (a, rest) => f a rest
    | .error r => .error r

namespace Reader

/-- Refuses what comes next. -/
def refuse {α : Type} (reason : Reason) : Reader α := fun ts => .error ⟨ts, reason⟩

/-- Whether the first token is the keyword or mark `word`. -/
def startsWith (word : String) : List Token → Bool
  | t :: _ => t.spells word
  | [] => false

/-- Whether the first token is one of the keywords or marks. -/
def startsWithAny (words : List String) (ts : List Token) : Bool :=
  words.any fun word => startsWith word ts

/-- Takes the keyword or mark `word` if it comes next, and says whether it did. -/
def accept (word : String) : Reader Bool
  | t :: rest => if t.spells word then .ok (true, rest) else .ok (false, t :: rest)
  | [] => .ok (false, [])

/-- Takes the keyword or mark `word`, which has to come next, and returns its offset; refuses for
`reason` otherwise. -/
def require (word : String) (reason : Reason) : Reader Nat
  | t :: rest => if t.spells word then .ok (t.offset, rest) else .error ⟨t :: rest, reason⟩
  | [] => .error ⟨[], reason⟩

/-- Takes the keyword or mark `word`, which has to come next, and returns its offset. -/
def expect (word : String) : Reader Nat := require word (.expected word)

/-- Takes a name.  Keywords are names too. -/
def identifier : Reader String
  | t :: rest =>
    if t.kind = .identifier then .ok (t.text, rest) else .error ⟨t :: rest, .expectedIdentifier⟩
  | [] => .error ⟨[], .expectedIdentifier⟩

/-! ## §3 Repetition

The number bounds the rounds.  Every round takes at least one token, so a bound that is
not below the number of tokens changes nothing. -/

/-- Reads items as long as the tokens go on with `more`. -/
def repeatWhile {α : Type} (more : List Token → Bool) (item : Reader α) : Nat → Reader (List α)
  | 0 => pure []
  | bound + 1 => fun ts =>
    if more ts then
      (do
        let first ← item
        let others ← repeatWhile more item bound
        return first :: others) ts
    else .ok ([], ts)

/-- Reads an item after every `mark`. -/
def afterEach {α : Type} (mark : String) (item : Reader α) (bound : Nat) : Reader (List α) :=
  repeatWhile (startsWith mark) (do let _ ← expect mark; item) bound

/-- Reads items with a `mark` between them, at least one. -/
def separated {α : Type} (mark : String) (item : Reader α) (bound : Nat) : Reader (List α) := do
  let first ← item
  let others ← afterEach mark item bound
  return first :: others

end Reader

end DynImp.Grammar
