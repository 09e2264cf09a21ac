import DynImp.Decimal.Text
import DynImp.Text.Quoted

/-!
# Scalars

The values that need no store: what a literal of a program denotes, and all runtime
values other than lists.
-/

namespace DynImp

/-- **Scalar.** A value that is its own identity. -/
inductive Scalar where
  | nil
  | boolean (b : Bool)
  | integer (i : Int)
  | decimal (d : Decimal)
  | character (c : Char)
  | string (s : String)
  deriving DecidableEq, Repr

namespace Scalar

/-- **Plain text.** What printing writes: characters and strings raw, without quotes. -/
def text : Scalar → String
  | .nil => "NIL"
  | .boolean true => "TRUE"
  | .boolean false => "FALSE"
  | .integer i => Numeral.signedText 10 i
  | .decimal d => d.text
  | .character c => String.singleton c
  | .string s => s

/-- **Quoted text.** As the plain text, but with characters and strings in quotes. -/
def quoted : Scalar → String
  | .character c => Text.quotedChar c
  | .string s => Text.quotedString s
  | s => s.text

/-- **Equality.** Scalars of one kind are compared by value, decimals as numbers; scalars of
different kinds are never equal. -/
def equal : Scalar → Scalar → Bool
  | .decimal a, .decimal b => a.sameNumber b
  | a, b => a = b

/-- **Order.** Integers, decimals, characters and strings are ordered among their own kind;
strings by code points.  No other two scalars are. -/
def order? : Scalar → Scalar → Option Ordering
  | .integer a, .integer b => some (compare a b)
  | .decimal a, .decimal b => some (a.compare b)
  | .character a, .character b => some (compare a.toNat b.toNat)
  | .string a, .string b => some (compare (a.toList.map Char.toNat) (b.toList.map Char.toNat))
  | _, _ => none

end Scalar

end DynImp
