import DynImp.Proofs.Grammar.Trees
import DynImp.Proofs.Typing.Inversion

/-!
# What the checker objects to

Every way in which a program can be rejected, said once: the node of the tree that is at
fault, and the error, which lies where the node begins.

* **Layer A: faults of nodes.** What may be wrong with an expression, a statement, a global
  and a function, each apart from its parts.
* **Layer B: results.** One rule for each way in which the checker puts steps together.
* **Layer C: trees.** Whatever the checker reports is the fault of a node in the tree.
-/

namespace DynImp

open Typing

/-! ## §1 Faults of nodes -/

/-- Whether an expression is a call. -/
def Expr.isCall {ν : Notes} : Expr ν → Bool
  | .call .. => true
  | _ => false

/-- Whether an expression may stand before an assignment's equals sign. -/
def Expr.isReceiver {ν : Notes} : Expr ν → Bool
  | .var .. | .element .. => true
  | _ => false

/-- **Faulty expressions.** What may be wrong with an expression, by itself or for the place at which
it stands. -/
inductive Expr.Faulty : Expr Bare → TypeError → Prop where
  | notAssignable {e target actual} : target.accepts actual = false →
      Faulty e ⟨e.offset, .notAssignable target actual⟩
  | condition {e actual} : actual ≠ .boolean → Faulty e ⟨e.offset, .conditionNotBoolean actual⟩
  | index {e actual} : actual ≠ .integer → Faulty e ⟨e.offset, .indexNotInteger actual⟩
  | notACall {e} : e.isCall = false → Faulty e ⟨e.offset, .notACall⟩
  | notAReceiver {e} : e.isReceiver = false → Faulty e ⟨e.offset, .notAReceiver⟩
  | immutable {o x name} : Faulty (.var o () x name) ⟨o, .immutableAssignment name⟩
  | redundant {o inner} : isBinary inner = false → Faulty (.group o () inner) ⟨o, .redundantGroup⟩
  | operands {op left right τ σ} : operatorType? op τ σ = none →
      Faulty (.binary () op left right) ⟨left.offset, .invalidOperands op τ σ⟩
  | variable {o x name} :
      Faulty (.var o () x name) ⟨o, .undefined (.undefinedVariable name)⟩
  | list {o x name index} :
      Faulty (.element o () x name index) ⟨o, .undefined (.undefinedVariable name)⟩
  | notAList {o x name index} : Faulty (.element o () x name index) ⟨o, .notAList name⟩
  | callee {o f name args} :
      Faulty (.call o () f name args) ⟨o, .undefined (.undefinedFunction name args.length)⟩
  | empty {o} : Faulty (.list o () []) ⟨o, .emptyList⟩

/-- The error lies where the expression begins. -/
theorem Expr.Faulty.offset_eq {e : Expr Bare} {err : TypeError} (h : e.Faulty err) :
    err.offset = e.offset := by
  cases h <;> rfl

/-- Among the expressions is a faulty one. -/
def Expr.SomeFaulty (es : List (Expr Bare)) (err : TypeError) : Prop := ∃ e ∈ es, e.Faulty err

/-- **Faulty declarations.** A written type that is none, or neither a type nor a value. -/
inductive Typing.FaultyDeclaration (o : Nat) (name : String) :
    Option String → Option (Expr Bare) → TypeError → Prop where
  | unknownType {type value} : Ty.ofName? type = none →
      FaultyDeclaration o name (some type) value ⟨o, .unknownType type⟩
  | untyped : FaultyDeclaration o name none none ⟨o, .untyped name⟩

theorem Typing.FaultyDeclaration.offset_eq {o : Nat} {name : String} {typeName : Option String}
    {value : Option (Expr Bare)} {err : TypeError}
    (h : FaultyDeclaration o name typeName value err) : err.offset = o := by
  cases h <;> rfl

theorem Typing.FaultyDeclaration.fault_ne {o : Nat} {name : String} {typeName : Option String}
    {value : Option (Expr Bare)} {err : TypeError}
    (h : FaultyDeclaration o name typeName value err) : err.fault ≠ .missingMain := by
  cases h <;> exact nofun

/-- **Faulty statements.** What may be wrong with a statement apart from its parts. -/
inductive Stmt.Faulty : Stmt Bare → TypeError → Prop where
  | declare {o x name type value err} : FaultyDeclaration o name type value err →
      Faulty (.declare o x name type value) err
  | misplaced {subject before o body c after} :
      Faulty (.switch subject (before ++ .mk o none body :: c :: after)) ⟨o, .misplacedDefault⟩

/-- **Faulty globals.** -/
def Global.Faulty (g : Global Bare) (err : TypeError) : Prop :=
  FaultyDeclaration g.offset g.name g.typeName g.value err

/-- **Faulty functions.** A written type of a parameter or of the result that is none. -/
inductive Function.Faulty (f : Function Bare) : TypeError → Prop where
  | unknownType {type} : some type ∈ f.returnTypeName :: f.params.map (·.typeName) →
      Ty.ofName? type = none → Faulty f ⟨f.offset, .unknownType type⟩

/-- Among the expressions or the statements is a faulty one. -/
def Stmt.SomeFaulty (es : List (Expr Bare)) (block : List (Stmt Bare)) (err : TypeError) : Prop :=
  Expr.SomeFaulty es err ∨ ∃ s ∈ block, s.Faulty err

/-- Whether a function is the one that a program begins with. -/
def Function.isMain {ν : Notes} (f : Function ν) : Bool := f.name = "main" ∧ f.params = []

theorem Function.isMain_eq {ν : Notes} :
    (isMain : Function ν → Bool) = fun f => decide (f.name = "main" ∧ f.arity = 0) := by
  funext f
  simp [isMain, arity, List.length_eq_zero_iff]

/-- The type of what a function gives back, as it is written at the function. -/
def Function.returnType {ν : Notes} (f : Function ν) : Ty :=
  (f.returnTypeName.bind Ty.ofName?).getD .nil

/-- **Faulty programs.** A program with a faulty part, one without `main`, or one whose `main` gives
back something else than an integer. -/
inductive Program.Faulty (p : Program Bare) : TypeError → Prop where
  | part {err} : Stmt.SomeFaulty p.exprs p.stmts err → Faulty p err
  | global {g err} : g ∈ p.globals → g.Faulty err → Faulty p err
  | function {f err} : f ∈ p.functions → f.Faulty err → Faulty p err
  | missingMain : Faulty p ⟨0, .missingMain⟩
  | main {f result} : p.functions.find? Function.isMain = some f →
      Ty.accepts .integer result = false → Faulty p ⟨f.offset, .notAssignable .integer result⟩

theorem Expr.SomeFaulty.of_subset {es fs : List (Expr Bare)} (hes : es ⊆ fs) {err : TypeError}
    (h : SomeFaulty es err) : SomeFaulty fs err := by
  obtain ⟨e, he, herr⟩ := h
  exact ⟨e, hes he, herr⟩

/-- What is wrong with an expression is wrong with a part of it. -/
theorem Expr.someFaulty_self {e : Expr Bare} {err : TypeError} (h : e.Faulty err) :
    SomeFaulty e.parts err :=
  ⟨e, by rw [Expr.parts_eq]; exact List.mem_cons_self, h⟩

theorem Stmt.SomeFaulty.of_subset {es fs : List (Expr Bare)} {block others : List (Stmt Bare)}
    (hes : es ⊆ fs) (hblock : block ⊆ others) {err : TypeError} (h : SomeFaulty es block err) :
    SomeFaulty fs others err := by
  obtain h | ⟨s, hs, herr⟩ := h
  · exact .inl (h.of_subset hes)
  · exact .inr ⟨s, hblock hs, herr⟩

namespace Typing

open DynImp.Expr (someFaulty_self)

/-! ## §2 Results -/

/-- Checking fails with errors of a kind only. -/
def FailsOnly {α : Type} (P : TypeError → Prop) (x : Except TypeError α) : Prop :=
  ∀ err, x = .error err → P err

namespace FailsOnly

variable {α β : Type} {P Q : TypeError → Prop}

theorem ok (a : α) : FailsOnly P (.ok a) := fun _ h => nomatch h

theorem error {err : TypeError} (h : P err) : FailsOnly P (.error err : Except TypeError α) := by
  rintro _ ⟨⟩
  exact h

/-- The second step may rely on what the first one gave. -/
theorem bind_ok {x : Except TypeError α} {f : α → Except TypeError β} (hx : FailsOnly P x)
    (hf : ∀ a, x = .ok a → FailsOnly P (f a)) : FailsOnly P (x >>= f) := by
  cases x with
  | ok a => exact hf a rfl
  | error err =>
      rintro _ ⟨⟩
      exact hx err rfl

theorem bind {x : Except TypeError α} {f : α → Except TypeError β} (hx : FailsOnly P x)
    (hf : ∀ a, FailsOnly P (f a)) : FailsOnly P (x >>= f) :=
  hx.bind_ok fun a _ => hf a

theorem imp {x : Except TypeError α} (hx : FailsOnly P x) (h : ∀ err, P err → Q err) :
    FailsOnly Q x :=
  fun err herr => h err (hx err herr)

end FailsOnly

section Steps

variable {P : TypeError → Prop}

theorem requireAssignable_failsOnly {target actual : Ty} {offset : Nat}
    (h : target.accepts actual = false → P ⟨offset, .notAssignable target actual⟩) :
    FailsOnly P (requireAssignable target actual offset) := by
  unfold requireAssignable
  split
  · exact .ok ()
  · next haccepts => exact .error (h (by simpa using haccepts))

/-- A value that is stored may be the wrong one for its slot. -/
theorem requireStored_failsOnly {e : Expr Bare} {target actual : Ty}
    (h : ∀ err, e.Faulty err → P err) :
    FailsOnly P (requireAssignable target actual e.offset) :=
  requireAssignable_failsOnly fun haccepts => h _ (.notAssignable haccepts)

theorem resolveVariable_failsOnly {Γ : StaticScope} {offset : Nat} {name : String}
    (h : P ⟨offset, .undefined (.undefinedVariable name)⟩) :
    FailsOnly P (resolveVariable Γ offset name) := by
  unfold resolveVariable Scope.lookupVariable
  split
  · exact .ok _
  · exact .error h

theorem resolveCallee_failsOnly {Γ : StaticScope} {offset : Nat} {name : String} {arity : Nat}
    (h : P ⟨offset, .undefined (.undefinedFunction name arity)⟩) :
    FailsOnly P (resolveCallee Γ offset name arity) := by
  unfold resolveCallee Scope.lookupFunction
  split
  · exact .ok _
  · exact .error h

theorem resolveType_failsOnly {offset : Nat} {typeName : Option String}
    (h : ∀ type, typeName = some type → Ty.ofName? type = none → P ⟨offset, .unknownType type⟩) :
    FailsOnly P (resolveType offset typeName) := by
  unfold resolveType
  split
  · exact .ok _
  · next type =>
      split
      · exact .ok _
      · next hnone => exact .error (h type rfl hnone)

/-- Without a type there is none written. -/
theorem typeName_eq_none {typeName : Option String} {declared : Option Ty}
    (h : Written typeName declared) (hnone : declared = none) : typeName = none := by
  cases h with
  | none => rfl
  | some => cases hnone

/-! ## §3 Expressions -/

variable (Γ : StaticScope)

theorem inferEach_failsOnly {es : List (Expr Bare)} (h : ∀ e ∈ es, FailsOnly P (infer Γ e))
    (hstored : ∀ e ∈ es, ∀ err, e.Faulty err → P err) (slots : List Ty) :
    FailsOnly P (inferEach Γ es slots) := by
  induction es generalizing slots with
  | nil => exact .ok []
  | cons e es ih =>
      rw [List.forall_mem_cons] at h hstored
      rw [inferEach]
      refine .bind h.1 fun e' => ?_
      cases slots with
      | nil => exact .bind (ih h.2 hstored.2 []) fun _ => .ok _
      | cons slot slots =>
          exact .bind (requireStored_failsOnly hstored.1) fun _ =>
            .bind (ih h.2 hstored.2 slots) fun _ => .ok _

/-- What is reported of an expression is the fault of one in it. -/
theorem infer_failsOnly (e : Expr Bare) : FailsOnly (Expr.SomeFaulty e.parts) (infer Γ e) := by
  induction e using Expr.induct_inner with
  | step e ih =>
      have hself : ∀ err, e.Faulty err → Expr.SomeFaulty e.parts err := fun _ => someFaulty_self
      have hinner : ∀ d ∈ e.inner, FailsOnly (Expr.SomeFaulty e.parts) (infer Γ d) :=
        fun d hd => (ih d hd).imp fun err h => h.of_subset (Expr.parts_subset hd)
      have hstored : ∀ d ∈ e.inner, ∀ err, d.Faulty err → Expr.SomeFaulty e.parts err :=
        fun d hd err h => (someFaulty_self h).of_subset (Expr.parts_subset hd)
      -- Each form fails in one of its parts, or for what its constructor of `Faulty` says.
      cases e with
      | literal => exact .ok _
      | group o τ inner =>
          rw [infer]
          split
          · exact .bind (hinner inner List.mem_cons_self) fun _ => .ok _
          · next hbinary => exact .error (hself _ (.redundant (by simpa using hbinary)))
      | binary τ op left right =>
          rw [Expr.inner, List.forall_mem_cons, List.forall_mem_singleton] at hinner
          rw [infer]
          refine .bind hinner.1 fun left' => .bind hinner.2 fun right' => ?_
          split
          · exact .ok _
          · next hnone => exact .error (hself _ (.operands hnone))
      | var o τ x name =>
          rw [infer]
          exact .bind (resolveVariable_failsOnly (hself _ .variable)) fun _ => .ok _
      | element o τ x name index =>
          rw [infer]
          refine .bind (resolveVariable_failsOnly (hself _ .list)) fun found => ?_
          split
          · refine .bind (hinner index List.mem_cons_self) fun index' => ?_
            split
            · exact .ok _
            · next hne => exact .error (hstored index List.mem_cons_self _ (.index hne))
          · exact .error (hself _ .notAList)
      | call o τ f name args =>
          rw [infer]
          exact .bind (resolveCallee_failsOnly (hself _ .callee)) fun found =>
            .bind (inferEach_failsOnly Γ hinner hstored _) fun _ => .ok _
      | list o τ items =>
          cases items with
          | nil => exact .error (hself _ .empty)
          | cons first others =>
              rw [Expr.inner, List.forall_mem_cons] at hinner hstored
              rw [infer]
              exact .bind hinner.1 fun first' =>
                .bind (inferEach_failsOnly Γ hinner.2 hstored.2 _) fun _ => .ok _

end Steps

section Values

variable (Γ : StaticScope)

theorem inferFor_failsOnly (target : Ty) (value : Expr Bare) :
    FailsOnly (Expr.SomeFaulty value.parts) (inferFor Γ target value) := by
  unfold inferFor
  split
  · next element o τ items =>
      have hsubset : ∀ item ∈ items, item.parts ⊆ (Expr.list o τ items).parts :=
        fun item hitem => Expr.parts_subset hitem
      cases items with
      | nil => exact .error (someFaulty_self .empty)
      | cons first others =>
          refine .bind (inferEach_failsOnly Γ (fun item hitem => ?_) (fun item hitem err h => ?_) _)
            fun _ => .ok _
          · exact (infer_failsOnly Γ item).imp fun err h => h.of_subset (hsubset item hitem)
          · exact (someFaulty_self h).of_subset (hsubset item hitem)
  · exact .bind (infer_failsOnly Γ value) fun _ =>
      .bind (requireStored_failsOnly fun _ => someFaulty_self) fun _ => .ok _

theorem inferCondition_failsOnly (condition : Expr Bare) :
    FailsOnly (Expr.SomeFaulty condition.parts) (inferCondition Γ condition) := by
  refine .bind (infer_failsOnly Γ condition) fun inferred => ?_
  split
  · exact .ok _
  · next hne => exact .error (someFaulty_self (.condition hne))

theorem inferReceiver_failsOnly (receiver : Expr Bare) :
    FailsOnly (Expr.SomeFaulty receiver.parts) (inferReceiver Γ receiver) := by
  unfold inferReceiver
  split
  · refine .bind (resolveVariable_failsOnly (someFaulty_self .variable)) fun found => ?_
    split
    · exact .ok _
    · exact .error (someFaulty_self .immutable)
  · exact infer_failsOnly Γ _
  · next hvar helement =>
      refine .error (someFaulty_self (.notAReceiver ?_))
      cases receiver with
      | var => exact absurd rfl (hvar _ _ _ _)
      | element => exact absurd rfl (helement _ _ _ _ _)
      | _ => rfl

/-- A declaration without a fault has a type or a value. -/
theorem inferInitial_failsOnly {P : TypeError → Prop} {o : Nat} {name : String}
    {declared : Option Ty} {value : Option (Expr Bare)}
    (huntyped : declared = none → value = none → P ⟨o, .untyped name⟩)
    (hvalue : ∀ e ∈ value.toList, ∀ err, Expr.SomeFaulty e.parts err → P err) :
    FailsOnly P (inferInitial Γ o name declared value) := by
  unfold inferInitial
  split
  · next target value =>
      have hvalue := hvalue value List.mem_cons_self
      exact .bind ((inferFor_failsOnly Γ target value).imp hvalue) fun _ => .ok _
  · exact .ok _
  · next value =>
      have hvalue := hvalue value List.mem_cons_self
      exact .bind ((infer_failsOnly Γ value).imp hvalue) fun _ => .ok _
  · exact .error (huntyped rfl rfl)

end Values

/-! ## §4 Statements -/

section Statements

variable {P : TypeError → Prop} (result : Ty)

theorem checkBlock_failsOnly {block : List (Stmt Bare)}
    (h : ∀ s ∈ block, ∀ env, FailsOnly P (checkStmt result env s)) (env : Env) :
    FailsOnly P (checkBlock result env block) := by
  induction block generalizing env with
  | nil => exact .ok _
  | cons s block ih =>
      rw [List.forall_mem_cons] at h
      rw [checkBlock]
      exact .bind (h.1 env) fun _ => .bind (ih h.2 _) fun _ => .ok _

theorem checkCases_failsOnly (subject : Ty) {cases : List (Case Bare)}
    (hvalues : ∀ c ∈ cases, ∀ e ∈ c.value.toList, ∀ err, Expr.SomeFaulty e.parts err → P err)
    (hmisplaced : ∀ before o body c after, cases = before ++ .mk o none body :: c :: after →
      P ⟨o, .misplacedDefault⟩)
    (hbodies : ∀ c ∈ cases, ∀ s ∈ c.body, ∀ env, FailsOnly P (checkStmt result env s))
    (env : Env) : FailsOnly P (checkCases result subject env cases) := by
  induction cases generalizing env with
  | nil => exact .ok _
  | cons c rest ih =>
      obtain ⟨o, value, body⟩ := c
      rw [List.forall_mem_cons] at hvalues hbodies
      have hrest := ih hvalues.2
        (fun before o' body' c after h => hmisplaced (.mk o value body :: before) o' body' c after
          (by rw [h, List.cons_append]))
        hbodies.2
      have hbody := checkBlock_failsOnly result hbodies.1
      cases value with
      | some value =>
          have hvalue := hvalues.1 value List.mem_cons_self
          rw [checkCases]
          refine .bind ((infer_failsOnly env.scope value).imp hvalue) fun _ =>
            .bind (requireStored_failsOnly fun err h => hvalue err (someFaulty_self h)) fun _ => ?_
          exact .bind (.ok _) fun _ => .bind (hbody _) fun _ => .bind (hrest _) fun _ => .ok _
      | none =>
          -- A `DEFAULT` is checked only where it is the last case.
          cases rest with
          | nil =>
              exact .bind (.ok _) fun _ => .bind (hbody _) fun _ => .bind (hrest _) fun _ => .ok _
          | cons c after => exact .error (hmisplaced [] o body c after rfl)

/-- What is reported of a statement is the fault of an expression or a statement in it. -/
theorem checkStmt_failsOnly (s : Stmt Bare) (env : Env) :
    FailsOnly (Stmt.SomeFaulty s.exprs s.parts) (checkStmt result env s) := by
  induction s using Stmt.induct_inner generalizing env with
  | step s ih =>
      have hself : ∀ err, s.Faulty err → Stmt.SomeFaulty s.exprs s.parts err := fun err h =>
        .inr ⟨s, by rw [Stmt.parts_eq]; exact List.mem_cons_self, h⟩
      have hoperands : ∀ e ∈ s.operands, ∀ err, Expr.SomeFaulty e.parts err →
          Stmt.SomeFaulty s.exprs s.parts err :=
        fun e he err h => .inl (h.of_subset (Stmt.operand_subset he))
      have hinner : ∀ t ∈ s.inner, ∀ env,
          FailsOnly (Stmt.SomeFaulty s.exprs s.parts) (checkStmt result env t) :=
        fun t ht env => (ih t ht env).imp fun err h =>
          h.of_subset (Stmt.exprs_subset ht) (Stmt.parts_subset ht)
      cases s with
      | perform e =>
          have he := hoperands e List.mem_cons_self
          unfold checkStmt
          split
          · exact .bind ((infer_failsOnly _ _).imp he) fun _ => .ok _
          · next hcall =>
              refine .error (he _ (someFaulty_self (.notACall ?_)))
              cases e with
              | call => exact absurd rfl (hcall _ _ _ _ _)
              | _ => rfl
      | declare o x name typeName value =>
          rw [checkStmt]
          refine .bind_ok (resolveType_failsOnly fun type htype hnone => ?_) fun declared hok => ?_
          · subst htype
            exact hself _ (.declare (.unknownType hnone))
          · refine .bind (inferInitial_failsOnly _ (fun hdeclared hvalue => ?_) hoperands)
              fun _ => .ok _
            obtain rfl := typeName_eq_none (resolveType_ok hok) hdeclared
            subst hvalue
            exact hself _ (.declare .untyped)
      | assign receiver value =>
          rw [Stmt.operands, List.forall_mem_cons, List.forall_mem_singleton] at hoperands
          rw [checkStmt]
          exact .bind ((inferReceiver_failsOnly _ receiver).imp hoperands.1) fun _ =>
            .bind ((inferFor_failsOnly _ _ value).imp hoperands.2) fun _ => .ok _
      | choose condition yes no =>
          have hcondition := hoperands condition List.mem_cons_self
          rw [Stmt.inner, List.forall_mem_append] at hinner
          rw [checkStmt]
          exact .bind ((inferCondition_failsOnly _ condition).imp hcondition) fun _ =>
            .bind (checkBlock_failsOnly result hinner.1 _) fun _ =>
              .bind (checkBlock_failsOnly result hinner.2 _) fun _ => .ok _
      | switch subject cases =>
          rw [Stmt.operands, List.forall_mem_cons, List.forall_mem_flatMap] at hoperands
          rw [Stmt.inner, List.forall_mem_flatMap] at hinner
          rw [checkStmt]
          refine .bind ((infer_failsOnly _ subject).imp hoperands.1) fun subject' =>
            .bind (checkCases_failsOnly result _ hoperands.2 ?_ hinner _) fun _ => .ok _
          rintro before o body c after rfl
          exact hself _ .misplaced
      | loop condition body =>
          have hcondition := hoperands condition List.mem_cons_self
          rw [checkStmt]
          exact .bind ((inferCondition_failsOnly _ condition).imp hcondition) fun _ =>
            .bind (checkBlock_failsOnly result hinner _) fun _ => .ok _
      | giveBack value =>
          have hvalue := hoperands value List.mem_cons_self
          rw [checkStmt]
          exact .bind ((infer_failsOnly _ value).imp hvalue) fun _ =>
            .bind (requireStored_failsOnly fun err h => hvalue err (someFaulty_self h)) fun _ =>
              .ok _

end Statements

/-! ## §5 Items -/

theorem checkGlobal_failsOnly {P : TypeError → Prop} {g : Global Bare}
    (hself : ∀ err, g.Faulty err → P err)
    (hvalue : ∀ e ∈ g.value.toList, ∀ err, Expr.SomeFaulty e.parts err → P err) (env : Env) :
    FailsOnly P (checkGlobal env g) := by
  refine .bind_ok (resolveType_failsOnly fun type htype hnone => hself _ ?_) fun written hok => ?_
  · rw [Global.Faulty, htype]
    exact .unknownType hnone
  · refine .bind (inferInitial_failsOnly _ (fun hdeclared hvalue => hself _ ?_) hvalue) fun _ => .ok _
    -- A list has a type in any case, so a global without one has no written type.
    have hwritten : written = none := by
      cases hlist : g.isList <;> simpa [hlist] using hdeclared
    rw [Global.Faulty, typeName_eq_none (resolveType_ok hok) hwritten, hvalue]
    exact .untyped

theorem resolveParams_failsOnly {P : TypeError → Prop} {offset : Nat} {params : List Parameter}
    (h : ∀ x ∈ params, ∀ type, x.typeName = some type → Ty.ofName? type = none →
      P ⟨offset, .unknownType type⟩) : FailsOnly P (resolveParams offset params) := by
  induction params with
  | nil => exact .ok _
  | cons x params ih =>
      rw [List.forall_mem_cons] at h
      rw [resolveParams]
      exact .bind (resolveType_failsOnly h.1) fun _ => .bind (ih h.2) fun _ => .ok _

theorem checkFunction_failsOnly {P : TypeError → Prop} {f : Function Bare}
    (hself : ∀ err, f.Faulty err → P err)
    (hbody : ∀ s ∈ f.body, ∀ err, Stmt.SomeFaulty s.exprs s.parts err → P err) (env : Env) :
    FailsOnly P (checkFunction env f) := by
  refine .bind (resolveParams_failsOnly fun x hx type htype hnone => hself _ ?_) fun params =>
    .bind (resolveType_failsOnly fun type htype hnone => hself _ ?_) fun written =>
      .bind (checkBlock_failsOnly _ (fun s hs env => ?_) _) fun _ => .ok _
  · exact .unknownType (List.mem_cons_of_mem _ (List.mem_map.mpr ⟨x, hx, htype⟩)) hnone
  · exact .unknownType (htype ▸ List.mem_cons_self) hnone
  · exact (checkStmt_failsOnly _ s env).imp (hbody s hs)

theorem checkEach_failsOnly {α β : Type} {P : TypeError → Prop}
    {check : Env → α → Except TypeError (β × Env)} {as : List α}
    (h : ∀ a ∈ as, ∀ env, FailsOnly P (check env a)) (env : Env) :
    FailsOnly P (checkEach check env as) := by
  induction as generalizing env with
  | nil => exact .ok _
  | cons a as ih =>
      rw [List.forall_mem_cons] at h
      exact .bind (h.1 env) fun _ => .bind (ih h.2 _) fun _ => .ok _

/-! ### The function that a program begins with -/

theorem checkGlobals_findFunction {gs : List (Global Bare)} {env env' : Env}
    {gs' : List (Global Typed)} (h : checkEach checkGlobal env gs = .ok (gs', env'))
    (name : String) (arity : Nat) :
    env'.scope.findFunction name arity = env.scope.findFunction name arity := by
  induction gs generalizing env gs' with
  | nil =>
      rw [checkEach] at h
      cases h
      rfl
  | cons g gs ih =>
      obtain ⟨g', env₁, rest', hg, hrest, -⟩ := checkEach_cons_ok h
      obtain ⟨_, _, _, -, -, -, rfl⟩ := checkGlobal_ok hg
      have hsame := ih hrest
      exact hsame

/-- **Results of found functions.** What a name and a number of parameters stand for after some
functions gives back what is written at the last of these functions that has them. -/
theorem checkFunctions_findFunction {fs : List (Function Bare)} {env env' : Env}
    {fs' : List (Function Typed)} (h : checkEach checkFunction env fs = .ok (fs', env'))
    (name : String) (arity : Nat) :
    (env'.scope.findFunction name arity).map (·.signature.result) =
      ((fs.reverse.find? fun f => f.name = name ∧ f.arity = arity).map Function.returnType).or
        ((env.scope.findFunction name arity).map (·.signature.result)) := by
  induction fs generalizing env fs' with
  | nil =>
      rw [checkEach] at h
      cases h
      rfl
  | cons f fs ih =>
      obtain ⟨f', env₁, rest', hf, hrest, -⟩ := checkEach_cons_ok h
      obtain ⟨types, written, body', inner, htypes, hwritten, -, -, rfl⟩ := checkFunction_ok hf
      have hlength : types.length = f.arity := (resolveParams_ok htypes).length_eq.symm
      have hresult : written.getD .nil = f.returnType := (resolveType_ok hwritten).getD_eq .nil
      rw [ih hrest, List.reverse_cons, List.find?_append]
      -- A later function of the name and number hides this one.
      cases fs.reverse.find? fun f => f.name = name ∧ f.arity = arity with
      | some later => rfl
      | none =>
          simp only [Env.leave, Env.define, Callee.arity, Scope.findFunction_defineFunction,
            hlength]
          by_cases hkey : f.name = name ∧ f.arity = arity
          · simp [hkey, hresult]
          · have hother : ¬ (name = f.name ∧ arity = f.arity) :=
              fun heq => hkey ⟨heq.1.symm, heq.2.symm⟩
            simp [hkey, hother]

/-- No built-in function is called `main`. -/
theorem initial_findFunction_main : Env.initial.scope.findFunction "main" 0 = none := by
  decide

/-- What is pointed at is the first `main`. -/
theorem mainOffset_eq {ν : Notes} {fs : List (Function ν)} {first : Function ν}
    (h : fs.find? Function.isMain = some first) : mainOffset fs = first.offset := by
  have hfind : (fs.find? fun f => f.name = "main" ∧ f.params = []) = some first := h
  rw [mainOffset, hfind]
  rfl

/-- What is found under the name `main` has been defined, for there is no such built-in function. -/
theorem exists_main {gs : List (Global Bare)} {fs : List (Function Bare)} {env env' : Env}
    {gs' : List (Global Typed)} {fs' : List (Function Typed)} {found : Callee}
    (hglobals : checkEach checkGlobal .initial gs = .ok (gs', env))
    (hfunctions : checkEach checkFunction env fs = .ok (fs', env'))
    (hfound : env'.scope.findFunction "main" 0 = some found) :
    ∃ first last, fs.find? Function.isMain = some first ∧
      fs.reverse.find? Function.isMain = some last ∧ found.signature.result = last.returnType := by
  have hresults := checkFunctions_findFunction hfunctions "main" 0
  rw [hfound, checkGlobals_findFunction hglobals, initial_findFunction_main, Option.map_none,
    Option.or_none, ← Function.isMain_eq] at hresults
  obtain ⟨last, hlast, hresult⟩ := Option.map_eq_some_iff.mp hresults.symm
  have hany : (fs.find? Function.isMain).isSome := by
    rw [List.find?_isSome]
    exact ⟨last, List.mem_reverse.mp (List.mem_of_find?_eq_some hlast), List.find?_some hlast⟩
  obtain ⟨first, hfirst⟩ := Option.isSome_iff_exists.mp hany
  exact ⟨first, last, hfirst, hlast, hresult.symm⟩

end Typing

/-! ## §6 Programs -/

/-- **Rejections.** A program is rejected for the fault of a node in it, for lack of a `main`, or for
the result of its `main`. -/
theorem Program.check_failsOnly (p : Program Bare) : FailsOnly p.Faulty p.check := by
  refine .bind_ok (checkEach_failsOnly (fun g hg env => ?_) _) fun globals hglobals =>
    .bind_ok (checkEach_failsOnly (fun f hf env => ?_) _) fun functions hfunctions => ?_
  · refine checkGlobal_failsOnly (fun err h => .global hg h) (fun e he err h => .part (.inl ?_)) env
    refine h.of_subset fun d hd => List.mem_append_left _ (List.mem_flatMap.mpr ⟨g, hg, ?_⟩)
    rw [Expr.someParts_eq]
    exact subset_flatMap he hd
  · refine checkFunction_failsOnly (fun err h => .function hf h) (fun s hs err h => .part ?_) env
    refine h.of_subset (fun e he => List.mem_append_right _ ?_) fun t ht => ?_
    · refine List.mem_flatMap.mpr ⟨f, hf, ?_⟩
      rw [Stmt.blockExprs_eq]
      exact subset_flatMap hs he
    · refine List.mem_flatMap.mpr ⟨f, hf, ?_⟩
      rw [Stmt.blockParts_eq]
      exact subset_flatMap hs ht
  · dsimp only
    split
    · exact .error .missingMain
    · next main hmain =>
        refine .bind (requireAssignable_failsOnly fun haccepts => ?_) fun _ => .ok _
        obtain ⟨first, -, hfirst, -⟩ := exists_main hglobals hfunctions hmain
        rw [mainOffset_eq hfirst]
        exact .main hfirst haccepts

/-- That there is no `main` is reported at the beginning. -/
theorem Program.offset_of_missingMain {p : Program Bare} {e : TypeError} (h : p.check = .error e)
    (hfault : e.fault = .missingMain) : e.offset = 0 := by
  cases p.check_failsOnly e h with
  | missingMain => rfl
  | main => cases hfault
  | part h =>
      obtain ⟨_, _, h⟩ | ⟨_, _, h⟩ := h
      · cases h <;> cases hfault
      · cases h with
        | declare h => exact absurd hfault h.fault_ne
        | misplaced => cases hfault
  | global _ h => exact absurd hfault h.fault_ne
  | function _ h =>
      cases h
      cases hfault

end DynImp
