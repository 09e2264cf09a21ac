import DynImp.Scalar

/-!
# Runtime values

A value is a scalar or a list.  Lists live in a heap and a value only names one, so that
two values can be the same list: a change through one of them shows through the other.
-/

namespace DynImp

/-- The place of a list in the heap; it is the identity of the list. -/
abbrev ListId := Nat

/-- **Value.** -/
inductive Value where
  | scalar (s : Scalar)
  | list (id : ListId)
  deriving DecidableEq, Repr

namespace Value

/-! ## §1 Scalars as values -/

/-- The value without content. -/
@[match_pattern] abbrev nil : Value := scalar .nil

/-- A truth value. -/
@[match_pattern] abbrev boolean (b : Bool) : Value := scalar (.boolean b)

/-- An integer. -/
@[match_pattern] abbrev integer (i : Int) : Value := scalar (.integer i)

/-- A decimal. -/
@[match_pattern] abbrev decimal (d : Decimal) : Value := scalar (.decimal d)

/-- A string. -/
@[match_pattern] abbrev string (s : String) : Value := scalar (.string s)

/-! ## §2 Kinds -/

/-- **Tag.** The kind of a value, which it carries at run time. -/
inductive Tag where
  | nil
  | boolean
  | integer
  | decimal
  | character
  | string
  | list
  deriving DecidableEq, Repr

/-- The name of a kind. -/
def Tag.text : Tag → String
  | .nil => "Nil"
  | .boolean => "Boolean"
  | .integer => "Integer"
  | .decimal => "Decimal"
  | .character => "Character"
  | .string => "String"
  | .list => "List"

/-- The kind of a value. -/
def tag : Value → Tag
  | scalar .nil => .nil
  | scalar (.boolean _) => .boolean
  | scalar (.integer _) => .integer
  | scalar (.decimal _) => .decimal
  | scalar (.character _) => .character
  | scalar (.string _) => .string
  | list _ => .list

end Value

end DynImp
