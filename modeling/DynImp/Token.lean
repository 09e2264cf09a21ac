/-!
# Tokens

The words of a program, each with its raw text and the byte at which it starts.  There
are no reserved words at this level: `IF` and `x` are both identifiers, and the grammar
tells keywords apart by their text.
-/

namespace DynImp

namespace Token

/-- **Kinds.** The lexical categories. -/
inductive Kind where
  /-- A letter or `@`, then letters, numerals, `_` and `-`. -/
  | identifier
  /-- Digits without a leading zero, optionally negative. -/
  | integer
  /-- Digits on both sides of one point, optionally negative. -/
  | decimal
  /-- One character or escape between single quotes. -/
  | character
  /-- Characters and escapes between double quotes. -/
  | string
  /-- A mark such as `+`, `==` or `;`. -/
  | operator
  deriving DecidableEq, Repr

end Token

/-- **Token.** A word of a program: its kind, its raw text with quotes and escapes, and the
byte at which it starts. -/
structure Token where
  kind : Token.Kind
  text : String
  /-- The byte at which the text starts. -/
  offset : Nat
  deriving DecidableEq, Repr

namespace Token

/-- The byte just past the last one of the token. -/
def stop (t : Token) : Nat := t.offset + t.text.utf8ByteSize

/-- Whether the token is the keyword or mark `word`.  Quoted literals and numbers never
are, whatever their text. -/
def spells (t : Token) (word : String) : Bool :=
  (t.kind = .identifier ∨ t.kind = .operator) ∧ t.text = word

/-- The byte just past the last token, 0 if there is none. -/
def endOf (tokens : List Token) : Nat := (tokens.getLast?.map stop).getD 0

end Token

end DynImp
