/-!
# Widths

Positions in a text are counted in bytes of its UTF-8 encoding.
-/

namespace DynImp.Text

/-- **Width.** The number of bytes a list of characters takes in UTF-8. -/
def width : List Char → Nat
  | [] => 0
  | c :: cs => c.utf8Size + width cs

@[simp] theorem width_nil : width [] = 0 := rfl

@[simp] theorem width_cons (c : Char) (cs : List Char) :
    width (c :: cs) = c.utf8Size + width cs := rfl

@[simp] theorem width_append (as bs : List Char) : width (as ++ bs) = width as + width bs := by
  induction as with
  | nil => simp
  | cons c cs ih => simp [ih, Nat.add_assoc]

end DynImp.Text
