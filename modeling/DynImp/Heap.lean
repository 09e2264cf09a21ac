import DynImp.Value

/-!
# The list heap

Lists are kept in the order of their creation and are never removed.  A list has a fixed
number of items; an item can be replaced.

The functions that follow a value into its lists take a bound on the depth.  In a heap
where no list contains itself a path meets every list at most once, so the number of
lists is bound enough, and `none` is no answer there.
-/

namespace DynImp

/-- **Heap.** All lists ever made, by their identity. -/
structure Heap where
  /-- The items of every list. -/
  lists : Array (List Value)
  deriving Repr

namespace Heap

/-- A heap without lists. -/
def empty : Heap := ⟨#[]⟩

/-- The items of a list. -/
def items (h : Heap) (id : ListId) : List Value := h.lists.getD id []

/-- Makes a list. -/
def alloc (h : Heap) (items : List Value) : ListId × Heap := (h.lists.size, ⟨h.lists.push items⟩)

/-- Replaces an item of a list. -/
def setItem (h : Heap) (id : ListId) (position : Nat) (v : Value) : Heap :=
  ⟨h.lists.modify id fun items => items.set position v⟩

/-! ## §1 Text -/

/-- The texts of values in order, if all of them have one. -/
def textsWith (text : Value → Option String) : List Value → Option (List String)
  | [] => some []
  | v :: rest =>
    match text v, textsWith text rest with
    | some first, some others => some (first :: others)
    | _, _ => none

/-- The text of a value whose lists nest at most as deeply as the bound. -/
def textWithin (h : Heap) : Nat → Value → Option String
  | _, .scalar s => some s.text
  | 0, .list _ => none
  | bound + 1, .list id =>
    (textsWith (h.textWithin bound) (h.items id)).map fun texts =>
      "[" ++ ", ".intercalate texts ++ "]"

/-- **Text.** What printing a value writes: scalars plain, lists in brackets. -/
def text? (h : Heap) (v : Value) : Option String := h.textWithin h.lists.size v

/-! ## §2 Equality -/

/-- Whether two lists of values are equal item by item, found out from the front. -/
def equalItems (equal : Value → Value → Option Bool) : List Value → List Value → Option Bool
  | [], [] => some true
  | a :: as, b :: bs =>
    match equal a b with
    | some true => equalItems equal as bs
    | answer => answer
  | _, _ => some false

/-- Equality of values whose lists nest at most as deeply as the bound. -/
def equalWithin (h : Heap) : Nat → Value → Value → Option Bool
  | _, .scalar a, .scalar b => some (a.equal b)
  | 0, .list _, .list _ => none
  | bound + 1, .list a, .list b => equalItems (h.equalWithin bound) (h.items a) (h.items b)
  | _, _, _ => some false

/-- **Equality.** Scalars by value, lists by their items; different kinds are never equal. -/
def equal? (h : Heap) (a b : Value) : Option Bool := h.equalWithin h.lists.size a b

/-! ## §3 Containment -/

/-- Whether one of the values has a property, found out from the front. -/
def anyOf (test : Value → Option Bool) : List Value → Option Bool
  | [] => some false
  | v :: rest =>
    match test v with
    | some false => anyOf test rest
    | answer => answer

/-- Containment in a value whose lists nest at most as deeply as the bound. -/
def containsWithin (h : Heap) (target : ListId) : Nat → Value → Option Bool
  | _, .scalar _ => some false
  | 0, .list _ => none
  | bound + 1, .list id =>
    if id = target then some true else anyOf (h.containsWithin target bound) (h.items id)

/-- **Containment.** Whether a value is the list `target` itself or has it among its items, their
items, and so on.  Identity decides, not equal content. -/
def contains? (h : Heap) (v : Value) (target : ListId) : Option Bool :=
  h.containsWithin target h.lists.size v

end Heap

end DynImp
