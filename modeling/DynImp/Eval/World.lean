import DynImp.Eval.Fault
import DynImp.Heap

/-!
# Computations

What a computation yields and what it acts on.

* **Layer A: outcomes.** A value, a fault, or nothing yet: a computation is given a bound on
  its depth, and `unfinished` says that the bound was reached.
* **Layer B: the world.** The heap, the cells of all variables, and the output.  It survives a
  fault, so what was printed and stored before it remains.
-/

namespace DynImp.Eval

/-! ## §1 Outcomes -/

/-- **Outcome.** -/
inductive Outcome (ε α : Type) where
  | done (a : α)
  | failed (e : ε)
  /-- The bound on the depth was reached. -/
  | unfinished
  deriving DecidableEq, Repr

/-- **Computation.** Acts on a state, which is there afterwards whatever the outcome. -/
def Run (σ α : Type) : Type := σ → Outcome Fault α × σ

namespace Run

variable {σ α β : Type}

@[always_inline]
instance : Monad (Run σ) where
  pure a := fun s => (.done a, s)
  bind x f := fun s =>
    match x s with
    | (.done a, s) => f a s
    | (.failed e, s) => (.failed e, s)
    | (.unfinished, s) => (.unfinished, s)

/-- Fails. -/
@[inline] def fail (e : Fault) : Run σ α := fun s => (.failed e, s)

/-- Gives up at the bound. -/
@[inline] def unfinished : Run σ α := fun s => (.unfinished, s)

/-- A result that is already there. -/
@[inline] def ofExcept : Except Fault α → Run σ α
  | .ok a => pure a
  | .error e => fail e

/-- The state. -/
@[inline] def read : Run σ σ := fun s => (.done s, s)

theorem pure_apply (a : α) (s : σ) : (pure a : Run σ α) s = (.done a, s) := rfl

theorem bind_apply (x : Run σ α) (f : α → Run σ β) (s : σ) :
    (x >>= f) s =
      match x s with
      | (.done a, s) => f a s
      | (.failed e, s) => (.failed e, s)
      | (.unfinished, s) => (.unfinished, s) := rfl

end Run

/-! ## §2 The world -/

/-- **Output.** What was written, and why nothing more can be, if so. -/
structure Output where
  written : String
  /-- Why every further write fails. -/
  broken : Option String
  deriving DecidableEq, Repr

/-- An output that records everything. -/
def Output.recording : Output := ⟨"", none⟩

/-- An output that fails on every write. -/
def Output.failing (reason : String) : Output := ⟨"", some reason⟩

/-- **World.** What computations act on. -/
structure World where
  heap : Heap
  /-- The values of all variables, by their cells. -/
  cells : Array Value
  output : Output

namespace World

/-- The world at the start. -/
def start (output : Output) : World := ⟨.empty, #[], output⟩

/-! ### Lists -/

/-- Makes a list. -/
def newList (items : List Value) : Run World Value := fun w =>
  let (id, heap) := w.heap.alloc items
  (.done (.list id), { w with heap })

/-- The items of a list. -/
def itemsOf (id : ListId) : Run World (List Value) := fun w => (.done (w.heap.items id), w)

/-- Replaces an item of a list. -/
def setItem (id : ListId) (position : Nat) (v : Value) : Run World Unit :=
  fun ⟨heap, cells, output⟩ => (.done (), ⟨heap.setItem id position v, cells, output⟩)

/-- An answer that the heap gives about its lists. -/
def ask {α : Type} (question : Heap → Option α) : Run World α := fun w =>
  match question w.heap with
  | some a => (.done a, w)
  | none => (.unfinished, w)

/-! ### Cells -/

/-- Makes a cell with a value. -/
def newCell (v : Value) : Run World Nat := fun ⟨heap, cells, output⟩ =>
  (.done cells.size, ⟨heap, cells.push v, output⟩)

/-- The value of a cell. -/
def readCell (cell : Nat) : Run World Value := fun w => (.done (w.cells.getD cell .nil), w)

/-- Changes the value of a cell. -/
def writeCell (cell : Nat) (v : Value) : Run World Unit := fun ⟨heap, cells, output⟩ =>
  (.done (), ⟨heap, cells.setIfInBounds cell v, output⟩)

/-! ### Output -/

/-- Writes a text. -/
def emit (text : String) : Run World Unit := fun ⟨heap, cells, ⟨written, broken⟩⟩ =>
  match broken with
  | some reason => (.failed (.output reason), ⟨heap, cells, ⟨written, broken⟩⟩)
  | none => (.done (), ⟨heap, cells, ⟨written ++ text, broken⟩⟩)

end World

end DynImp.Eval
