import DynImp.Proofs.Typing.Parts

/-!
# Induction over trees

Expressions and statements hold lists of their own kind.  One principle for each gives the
hypothesis for every member of such a list, so that a proof has one case for each kind of
node and none for the lists.
-/

namespace DynImp

variable {ν : Notes}

/-! ## §1 Principles -/

/-- **Induction over expressions.** -/
@[elab_as_elim]
theorem Expr.induct {motive : Expr ν → Prop} (literal : ∀ o τ v, motive (.literal o τ v))
    (group : ∀ o τ inner, motive inner → motive (.group o τ inner))
    (binary : ∀ τ op left right, motive left → motive right → motive (.binary τ op left right))
    (var : ∀ o τ x name, motive (.var o τ x name))
    (element : ∀ o τ x name index, motive index → motive (.element o τ x name index))
    (call : ∀ o τ f name args, (∀ arg ∈ args, motive arg) → motive (.call o τ f name args))
    (list : ∀ o τ items, (∀ item ∈ items, motive item) → motive (.list o τ items))
    (e : Expr ν) : motive e :=
  @Expr.rec ν motive (fun es => ∀ e ∈ es, motive e) literal group binary var element call list
    (fun _ h => nomatch h) (fun _ _ he hes => List.forall_mem_cons.mpr ⟨he, hes⟩) e

/-- **Induction over statements.** The bodies of cases count as blocks of the `SWITCH`. -/
@[elab_as_elim]
theorem Stmt.induct {motive : Stmt ν → Prop} (perform : ∀ e, motive (.perform e))
    (declare : ∀ o x name typeName value, motive (.declare o x name typeName value))
    (assign : ∀ receiver value, motive (.assign receiver value))
    (choose : ∀ condition yes no, (∀ s ∈ yes, motive s) → (∀ s ∈ no, motive s) →
      motive (.choose condition yes no))
    (switch : ∀ subject cases, (∀ c ∈ cases, ∀ s ∈ c.body, motive s) →
      motive (.switch subject cases))
    (loop : ∀ condition body, (∀ s ∈ body, motive s) → motive (.loop condition body))
    (giveBack : ∀ value, motive (.giveBack value)) (s : Stmt ν) : motive s :=
  @Stmt.rec ν motive (fun c => ∀ s ∈ c.body, motive s) (fun block => ∀ s ∈ block, motive s)
    (fun cases => ∀ c ∈ cases, ∀ s ∈ c.body, motive s)
    perform declare assign choose switch loop giveBack (fun _ _ _ hbody => hbody)
    (fun _ h => nomatch h) (fun _ _ hs hblock => List.forall_mem_cons.mpr ⟨hs, hblock⟩)
    (fun _ h => nomatch h) (fun _ _ hc hcases => List.forall_mem_cons.mpr ⟨hc, hcases⟩) s

/-! ## §2 Parts of lists -/

@[simp] theorem Expr.allParts_eq (es : List (Expr ν)) :
    Expr.allParts es = es.flatMap Expr.parts := by
  induction es with
  | nil => rfl
  | cons e es ih => rw [Expr.allParts, ih, List.flatMap_cons]

@[simp] theorem Stmt.blockParts_eq (block : List (Stmt ν)) :
    Stmt.blockParts block = block.flatMap Stmt.parts := by
  induction block with
  | nil => rfl
  | cons s block ih => rw [Stmt.blockParts, ih, List.flatMap_cons]

@[simp] theorem Stmt.casesParts_eq (cases : List (Case ν)) :
    Stmt.casesParts cases = cases.flatMap fun c => c.body.flatMap Stmt.parts := by
  induction cases with
  | nil => rfl
  | cons c cases ih =>
      obtain ⟨o, value, body⟩ := c
      rw [Stmt.casesParts, Stmt.blockParts_eq, ih, List.flatMap_cons]
      rfl

@[simp] theorem Stmt.blockExprs_eq (block : List (Stmt ν)) :
    Stmt.blockExprs block = block.flatMap Stmt.exprs := by
  induction block with
  | nil => rfl
  | cons s block ih => rw [Stmt.blockExprs, ih, List.flatMap_cons]

@[simp] theorem Stmt.casesExprs_eq (cases : List (Case ν)) :
    Stmt.casesExprs cases =
      cases.flatMap fun c => Expr.someParts c.value ++ c.body.flatMap Stmt.exprs := by
  induction cases with
  | nil => rfl
  | cons c cases ih =>
      obtain ⟨o, value, body⟩ := c
      rw [Stmt.casesExprs, Stmt.blockExprs_eq, ih, List.flatMap_cons, ← List.append_assoc]
      rfl

/-! ## §3 Direct parts -/

/-- The expressions right inside an expression. -/
def Expr.inner : Expr ν → List (Expr ν)
  | .literal .. | .var .. => []
  | .group _ _ inner => [inner]
  | .binary _ _ left right => [left, right]
  | .element _ _ _ _ index => [index]
  | .call _ _ _ _ args => args
  | .list _ _ items => items

theorem Expr.parts_eq (e : Expr ν) : e.parts = e :: e.inner.flatMap Expr.parts := by
  cases e <;> simp [Expr.parts, Expr.inner]

/-- The expressions right inside a statement, but for those in its blocks. -/
def Stmt.operands : Stmt ν → List (Expr ν)
  | .perform e => [e]
  | .declare _ _ _ _ value => value.toList
  | .assign receiver value => [receiver, value]
  | .choose condition _ _ => [condition]
  | .switch subject cases => subject :: cases.flatMap (·.value.toList)
  | .loop condition _ => [condition]
  | .giveBack value => [value]

/-- The statements right inside a statement. -/
def Stmt.inner : Stmt ν → List (Stmt ν)
  | .choose _ yes no => yes ++ no
  | .switch _ cases => cases.flatMap Case.body
  | .loop _ body => body
  | .perform _ | .declare .. | .assign .. | .giveBack _ => []

theorem Stmt.parts_eq (s : Stmt ν) : s.parts = s :: s.inner.flatMap Stmt.parts := by
  cases s <;> simp [Stmt.parts, Stmt.inner, List.flatMap_assoc]

theorem Expr.someParts_eq (value : Option (Expr ν)) :
    Expr.someParts value = value.toList.flatMap Expr.parts := by
  cases value <;> simp [Expr.someParts]

theorem Stmt.mem_exprs {s : Stmt ν} {e : Expr ν} :
    e ∈ s.exprs ↔ e ∈ s.operands.flatMap Expr.parts ∨ e ∈ s.inner.flatMap Stmt.exprs := by
  cases s with
  | switch subject cases =>
      simp only [exprs, operands, inner, casesExprs_eq, Expr.someParts_eq, List.flatMap_cons,
        List.mem_append, List.mem_flatMap]
      constructor
      · rintro (h | ⟨c, hc, ⟨d, hd, he⟩ | ⟨t, ht, he⟩⟩)
        · exact .inl (.inl h)
        · exact .inl (.inr ⟨d, ⟨c, hc, hd⟩, he⟩)
        · exact .inr ⟨t, ⟨c, hc, ht⟩, he⟩
      · rintro ((h | ⟨d, ⟨c, hc, hd⟩, he⟩) | ⟨t, ⟨c, hc, ht⟩, he⟩)
        · exact .inl h
        · exact .inr ⟨c, hc, .inl ⟨d, hd, he⟩⟩
        · exact .inr ⟨c, hc, .inr ⟨t, ht, he⟩⟩
  | _ => simp [exprs, operands, inner, Expr.someParts_eq]

/-! ### Parts of parts -/

theorem subset_flatMap {α β : Type} {f : α → List β} {a : α} {as : List α} (h : a ∈ as) :
    f a ⊆ as.flatMap f :=
  fun _ hb => List.mem_flatMap.mpr ⟨a, h, hb⟩

theorem Expr.parts_subset {d e : Expr ν} (h : d ∈ e.inner) : d.parts ⊆ e.parts := by
  rw [parts_eq e]
  exact List.subset_cons_of_subset e (subset_flatMap h)

theorem Stmt.parts_subset {s t : Stmt ν} (h : t ∈ s.inner) : t.parts ⊆ s.parts := by
  rw [parts_eq s]
  exact List.subset_cons_of_subset s (subset_flatMap h)

theorem Stmt.exprs_subset {s t : Stmt ν} (h : t ∈ s.inner) : t.exprs ⊆ s.exprs :=
  fun _ he => mem_exprs.mpr (.inr (subset_flatMap h he))

theorem Stmt.operand_subset {s : Stmt ν} {e : Expr ν} (h : e ∈ s.operands) : e.parts ⊆ s.exprs :=
  fun _ hd => mem_exprs.mpr (.inl (subset_flatMap h hd))

/-- **Induction over expressions**, whatever their kind. -/
@[elab_as_elim]
theorem Expr.induct_inner {motive : Expr ν → Prop}
    (step : ∀ e : Expr ν, (∀ d ∈ e.inner, motive d) → motive e) (e : Expr ν) : motive e := by
  induction e using Expr.induct with
  | literal | var => exact step _ fun _ h => nomatch h
  | group _ _ _ ih | element _ _ _ _ _ ih => exact step _ (List.forall_mem_singleton.mpr ih)
  | binary _ _ _ _ ihl ihr =>
      exact step _ (List.forall_mem_cons.mpr ⟨ihl, List.forall_mem_singleton.mpr ihr⟩)
  | call _ _ _ _ _ ih | list _ _ _ ih => exact step _ ih

/-- **Induction over statements**, whatever their kind. -/
@[elab_as_elim]
theorem Stmt.induct_inner {motive : Stmt ν → Prop}
    (step : ∀ s : Stmt ν, (∀ t ∈ s.inner, motive t) → motive s) (s : Stmt ν) : motive s := by
  induction s using Stmt.induct with
  | perform | declare | assign | giveBack => exact step _ fun _ h => nomatch h
  | choose _ _ _ ihyes ihno => exact step _ (List.forall_mem_append.mpr ⟨ihyes, ihno⟩)
  | switch _ cases ih =>
      refine step _ fun t ht => ?_
      obtain ⟨c, hc, ht⟩ := List.mem_flatMap.mp ht
      exact ih c hc t ht
  | loop _ _ ih => exact step _ ih

/-! ## §4 Cases -/

/-- The byte at which a statement begins, if the tree says so. -/
def Stmt.offset? : Stmt ν → Option Nat
  | .declare offset .. => some offset
  | _ => none

/-- The cases of a `SWITCH`. -/
def Stmt.cases : Stmt ν → List (Case ν)
  | .switch _ cases => cases
  | _ => []

/-- All cases of a program. -/
def Program.cases (p : Program ν) : List (Case ν) := p.stmts.flatMap Stmt.cases

end DynImp
