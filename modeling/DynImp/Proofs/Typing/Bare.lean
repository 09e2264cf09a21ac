import DynImp.Proofs.Grammar.Trees

/-!
# Trees without notes

A tree as it was written, with every note taken off.  What checking does to a tree is to
put notes on it: the tree without them is the one that was checked.
-/

namespace DynImp

variable {ν : Notes}

/-! ## §1 Expressions -/

mutual

/-- An expression without notes. -/
def Expr.bare : Expr ν → Expr Bare
  | .literal o _ value => .literal o () value
  | .group o _ inner => .group o () inner.bare
  | .binary _ op left right => .binary () op left.bare right.bare
  | .var o _ _ name => .var o () () name
  | .element o _ _ name index => .element o () () name index.bare
  | .call o _ _ name args => .call o () () name (Expr.allBare args)
  | .list o _ items => .list o () (Expr.allBare items)

/-- Expressions without notes. -/
def Expr.allBare : List (Expr ν) → List (Expr Bare)
  | [] => []
  | e :: rest => e.bare :: Expr.allBare rest

end

@[simp] theorem Expr.allBare_eq (es : List (Expr ν)) : Expr.allBare es = es.map Expr.bare := by
  induction es with
  | nil => rfl
  | cons e es ih => rw [Expr.allBare, ih, List.map_cons]

@[simp] theorem Expr.offset_bare (e : Expr ν) : e.bare.offset = e.offset := by
  induction e using Expr.induct with
  | binary _ _ _ _ ihleft _ => exact ihleft
  | literal | group | var | element | call | list => rfl

/-! ## §2 Statements -/

mutual

/-- A statement without notes. -/
def Stmt.bare : Stmt ν → Stmt Bare
  | .perform e => .perform e.bare
  | .declare o _ name typeName value => .declare o () name typeName (value.map Expr.bare)
  | .assign receiver value => .assign receiver.bare value.bare
  | .choose condition yes no => .choose condition.bare (Stmt.blockBare yes) (Stmt.blockBare no)
  | .switch subject cases => .switch subject.bare (Case.allBare cases)
  | .loop condition body => .loop condition.bare (Stmt.blockBare body)
  | .giveBack value => .giveBack value.bare

/-- A block without notes. -/
def Stmt.blockBare : List (Stmt ν) → List (Stmt Bare)
  | [] => []
  | s :: rest => s.bare :: Stmt.blockBare rest

/-- A case without notes. -/
def Case.bare : Case ν → Case Bare
  | .mk o value body => .mk o (value.map Expr.bare) (Stmt.blockBare body)

/-- Cases without notes. -/
def Case.allBare : List (Case ν) → List (Case Bare)
  | [] => []
  | c :: rest => c.bare :: Case.allBare rest

end

@[simp] theorem Stmt.blockBare_eq (block : List (Stmt ν)) :
    Stmt.blockBare block = block.map Stmt.bare := by
  induction block with
  | nil => rfl
  | cons s block ih => rw [Stmt.blockBare, ih, List.map_cons]

@[simp] theorem Case.allBare_eq (cases : List (Case ν)) :
    Case.allBare cases = cases.map Case.bare := by
  induction cases with
  | nil => rfl
  | cons c cases ih => rw [Case.allBare, ih, List.map_cons]

/-! ## §3 Programs -/

/-- A global without notes. -/
def Global.bare (g : Global ν) : Global Bare :=
  ⟨g.offset, (), g.name, g.typeName, g.mutable, g.isList, g.value.map Expr.bare⟩

/-- A function without notes. -/
def Function.bare (f : Function ν) : Function Bare :=
  ⟨f.offset, (), f.name, f.params, f.returnTypeName, f.body.map Stmt.bare⟩

/-- A program without notes. -/
def Program.bare (p : Program ν) : Program Bare :=
  ⟨p.globals.map Global.bare, p.functions.map Function.bare⟩

end DynImp
