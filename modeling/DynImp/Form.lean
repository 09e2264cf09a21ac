import DynImp.Eval.World

/-!
# Written values

A value is written as a tree of scalars, lists and references.  Building one makes a new
list for every list in the tree and takes over the value behind a reference, so a list
that is referred to stays the same list.  In the other direction a value is written out
without references.
-/

namespace DynImp

/-- **Form.** A written value, with references of type `ρ`. -/
inductive Form (ρ : Type) where
  | scalar (s : Scalar)
  | list (items : List (Form ρ))
  | ref (r : ρ)

namespace Form

variable {ρ : Type}

mutual

/-- **Building** the value that a form stands for. -/
def build (resolve : ρ → Eval.Run Eval.World Value) : Form ρ → Eval.Run Eval.World Value
  | scalar s => pure (.scalar s)
  | list items => do
    let items ← buildAll resolve items
    Eval.World.newList items
  | ref r => resolve r

/-- Building values in order. -/
def buildAll (resolve : ρ → Eval.Run Eval.World Value) :
    List (Form ρ) → Eval.Run Eval.World (List Value)
  | [] => pure []
  | f :: rest => do
    let v ← f.build resolve
    let vs ← buildAll resolve rest
    return v :: vs

end

/-- The forms of values in order, if all of them have one. -/
def formsWith (form : Value → Option (Form Empty)) : List Value → Option (List (Form Empty))
  | [] => some []
  | v :: rest =>
    match form v, formsWith form rest with
    | some first, some others => some (first :: others)
    | _, _ => none

/-- The form of a value whose lists nest at most as deeply as the bound. -/
def ofValueWithin (h : Heap) : Nat → Value → Option (Form Empty)
  | _, .scalar s => some (.scalar s)
  | 0, .list _ => none
  | bound + 1, .list id => (formsWith (ofValueWithin h bound) (h.items id)).map .list

/-- **Writing out** a value. -/
def ofValue? (h : Heap) (v : Value) : Option (Form Empty) := ofValueWithin h h.lists.size v

end Form

end DynImp
