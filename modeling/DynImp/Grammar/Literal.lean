import DynImp.Scalar
import DynImp.Text.Escape
import DynImp.Token

/-!
# Literals

The scalar that a literal token stands for.
-/

namespace DynImp.Token

open DynImp.Text

/-- **Constants.** The three names that stand for a value. -/
def constant? (name : String) : Option Scalar :=
  if name = "NIL" then some .nil
  else if name = "TRUE" then some (.boolean true)
  else if name = "FALSE" then some (.boolean false)
  else none

/-- What stands between the first and the last character of a text, each of which takes one
byte. -/
def unquote? (s : String) : Option (List Char) :=
  match s.toList with
  | opening :: rest =>
    match rest.getLast? with
    | some closing =>
      if opening.utf8Size = 1 ∧ closing.utf8Size = 1 then some rest.dropLast else none
    | none => none
  | [] => none

/-- **Literals.** The scalar that a number, character or string token stands for; `none` if its
text is not one of that kind.  Of several characters between single quotes the first one
counts. -/
def scalar? (t : Token) : Option Scalar :=
  match t.kind with
  | .integer => (Numeral.ofText? t.text).map .integer
  | .decimal => (Decimal.ofText? t.text).map .decimal
  | .character => (unquote? t.text).bind fun cs => (unescape cs).head?.map .character
  | .string => (unquote? t.text).map fun cs => .string (String.ofList (unescape cs))
  | .identifier | .operator => none

end DynImp.Token
