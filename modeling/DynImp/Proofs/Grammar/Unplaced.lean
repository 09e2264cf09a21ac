import DynImp.Program

/-!
# Trees without places

A tree with every offset set to 0.  Trees that agree without places are the same up to
offsets.
-/

namespace DynImp

variable {ν : Notes}

/-! ## §1 Expressions -/

mutual

/-- An expression without places. -/
def Expr.unplaced : Expr ν → Expr ν
  | .literal _ τ value => .literal 0 τ value
  | .group _ τ inner => .group 0 τ inner.unplaced
  | .binary τ op left right => .binary τ op left.unplaced right.unplaced
  | .var _ τ x name => .var 0 τ x name
  | .element _ τ x name index => .element 0 τ x name index.unplaced
  | .call _ τ f name args => .call 0 τ f name (Expr.allUnplaced args)
  | .list _ τ items => .list 0 τ (Expr.allUnplaced items)

/-- Expressions without places. -/
def Expr.allUnplaced : List (Expr ν) → List (Expr ν)
  | [] => []
  | e :: rest => e.unplaced :: Expr.allUnplaced rest

end

@[simp] theorem Expr.allUnplaced_eq (es : List (Expr ν)) :
    Expr.allUnplaced es = es.map Expr.unplaced := by
  induction es with
  | nil => rfl
  | cons e es ih => rw [Expr.allUnplaced, ih, List.map_cons]

/-! ## §2 Statements -/

mutual

/-- A statement without places. -/
def Stmt.unplaced : Stmt ν → Stmt ν
  | .perform e => .perform e.unplaced
  | .declare _ x name typeName value => .declare 0 x name typeName (value.map Expr.unplaced)
  | .assign receiver value => .assign receiver.unplaced value.unplaced
  | .choose condition yes no =>
    .choose condition.unplaced (Stmt.blockUnplaced yes) (Stmt.blockUnplaced no)
  | .switch subject cases => .switch subject.unplaced (Case.allUnplaced cases)
  | .loop condition body => .loop condition.unplaced (Stmt.blockUnplaced body)
  | .giveBack value => .giveBack value.unplaced

/-- A block without places. -/
def Stmt.blockUnplaced : List (Stmt ν) → List (Stmt ν)
  | [] => []
  | s :: rest => s.unplaced :: Stmt.blockUnplaced rest

/-- A case without places. -/
def Case.unplaced : Case ν → Case ν
  | .mk _ value body => .mk 0 (value.map Expr.unplaced) (Stmt.blockUnplaced body)

/-- Cases without places. -/
def Case.allUnplaced : List (Case ν) → List (Case ν)
  | [] => []
  | c :: rest => c.unplaced :: Case.allUnplaced rest

end

@[simp] theorem Stmt.blockUnplaced_eq (block : List (Stmt ν)) :
    Stmt.blockUnplaced block = block.map Stmt.unplaced := by
  induction block with
  | nil => rfl
  | cons s block ih => rw [Stmt.blockUnplaced, ih, List.map_cons]

@[simp] theorem Case.allUnplaced_eq (cases : List (Case ν)) :
    Case.allUnplaced cases = cases.map Case.unplaced := by
  induction cases with
  | nil => rfl
  | cons c cases ih => rw [Case.allUnplaced, ih, List.map_cons]

/-! ## §3 Programs -/

/-- A global without places. -/
def Global.unplaced (g : Global ν) : Global ν :=
  { g with offset := 0, value := g.value.map Expr.unplaced }

/-- A function without places. -/
def Function.unplaced (f : Function ν) : Function ν :=
  { f with offset := 0, body := f.body.map Stmt.unplaced }

/-- A program without places. -/
def Program.unplaced (p : Program ν) : Program ν :=
  ⟨p.globals.map Global.unplaced, p.functions.map Function.unplaced⟩

end DynImp
