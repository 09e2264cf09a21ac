import DynImp.Typing.Program

/-!
# Typing rules

What the notes of a checked program promise, as rules on the annotated tree.  The rules
are those of the checker without its error messages, and three things besides that the
checker does not look at.  How much of them is asked for is left open in `Limits`.

* **Layer A: expressions.** `HasType` for one expression, `Fits` for a list of them and
  the slots they go into.
* **Layer B: statements.** A statement is typed between two scopes, a block in one.
* **Layer C: items.**
-/

namespace DynImp

namespace Typing

/-- **Limits.** What a program is held to beyond what the checker looks at. -/
structure Limits where
  /-- The types that no value may be given for. -/
  blank : Ty → Prop
  /-- The types that may take each other's place where one name stands for two things. -/
  same : Ty → Ty → Prop
  /-- The operands that `^` may have. -/
  power : Expr Typed → Expr Typed → Prop

variable (L : Limits)

/-! ## §1 Expressions -/

mutual

/-- **Typed expressions.** The type note is the type of the expression, and names carry what they
resolve to. -/
inductive HasType : StaticScope → Expr Typed → Prop where
  | literal {Γ o s} : HasType Γ (.literal o (.ofScalar s) s)
  | group {Γ o inner} : HasType Γ inner → HasType Γ (.group o inner.type inner)
  | binary {Γ τ op left right} : HasType Γ left → HasType Γ right →
      operatorType? op left.type right.type = some τ → (op = .power → L.power left right) →
      HasType Γ (.binary τ op left right)
  | var {Γ o x name} : Γ.findVariable name = some x → HasType Γ (.var o x.type x name)
  | element {Γ o τ x name index} : Γ.findVariable name = some x → x.type = .list τ →
      HasType Γ index → index.type = .integer → HasType Γ (.element o τ x name index)
  | call {Γ o f name args} : Γ.findFunction name args.length = some f →
      Fits Γ args f.signature.params → HasType Γ (.call o f.signature.result f name args)
  | list {Γ o τ items} : Fits Γ items (List.replicate items.length τ) →
      HasType Γ (.list o (.list τ) items)

/-- **Slots.** Each expression may be stored in the slot at its place. -/
inductive Fits : StaticScope → List (Expr Typed) → List Ty → Prop where
  | nil {Γ} : Fits Γ [] []
  | cons {Γ e τ es slots} : HasType Γ e → τ.accepts e.type = true → Fits Γ es slots →
      Fits Γ (e :: es) (τ :: slots)

end

/-- A value for a slot of type `target`. -/
structure Stores (Γ : StaticScope) (target : Ty) (e : Expr Typed) : Prop where
  typed : HasType L Γ e
  accepts : target.accepts e.type = true

/-- An initial value; without one the variable starts with nothing. -/
def Initial (Γ : StaticScope) (target : Ty) : Option (Expr Typed) → Prop
  | some e => Stores L Γ target e
  | none => L.blank target

/-! ## §2 Statements -/

section Statements

variable (globals : String → Option Variable) (result : Ty)

/-- A local variable may stand in for the global that it hides from called functions. -/
def Hides (name : String) (x : Variable) : Prop :=
  ∀ g, globals name = some g → L.same x.type g.type

mutual

/-- **Typed statements**, in a function that returns a `result`.  Declarations add to the scope. -/
inductive StmtOk : StaticScope → Stmt Typed → StaticScope → Prop where
  | perform {Γ e} : HasType L Γ e → StmtOk Γ (.perform e) Γ
  | declare {Γ o x name typeName value} : x.mutable = true → Initial L Γ x.type value →
      Hides L globals name x →
      StmtOk Γ (.declare o x name typeName value) (Γ.defineVariable name x)
  | assignVar {Γ o x name value} : Γ.findVariable name = some x → x.mutable = true →
      Stores L Γ x.type value → StmtOk Γ (.assign (.var o x.type x name) value) Γ
  | assignElement {Γ o τ x name index value} : HasType L Γ (.element o τ x name index) →
      Stores L Γ τ value → StmtOk Γ (.assign (.element o τ x name index) value) Γ
  | choose {Γ condition yes no} : HasType L Γ condition → condition.type = .boolean →
      BlockOk Γ.push yes → BlockOk Γ.push no → StmtOk Γ (.choose condition yes no) Γ
  | switch {Γ subject cases} : HasType L Γ subject → CasesOk Γ cases →
      StmtOk Γ (.switch subject cases) Γ
  | loop {Γ condition body} : HasType L Γ condition → condition.type = .boolean →
      BlockOk Γ.push body → StmtOk Γ (.loop condition body) Γ
  | giveBack {Γ value} : Stores L Γ result value → StmtOk Γ (.giveBack value) Γ

/-- **Typed blocks.** -/
inductive BlockOk : StaticScope → List (Stmt Typed) → Prop where
  | nil {Γ} : BlockOk Γ []
  | cons {Γ Γ' s rest} : StmtOk Γ s Γ' → BlockOk Γ' rest → BlockOk Γ (s :: rest)

/-- **Typed cases**, each with a block of its own. -/
inductive CasesOk : StaticScope → List (Case Typed) → Prop where
  | nil {Γ} : CasesOk Γ []
  | default {Γ o body rest} : BlockOk Γ.push body → CasesOk Γ rest →
      CasesOk Γ (.mk o none body :: rest)
  | case {Γ o value body rest} : HasType L Γ value → BlockOk Γ.push body → CasesOk Γ rest →
      CasesOk Γ (.mk o (some value) body :: rest)

end

end Statements

/-! ## §3 Items -/

/-- Typed globals, between the scopes before and after them. -/
inductive GlobalsOk : StaticScope → List (Global Typed) → StaticScope → Prop where
  | nil {Γ} : GlobalsOk Γ [] Γ
  | cons {Γ Γ' g rest} : g.binding.mutable = g.mutable → Initial L Γ g.binding.type g.value →
      GlobalsOk (Γ.defineVariable g.name g.binding) rest Γ' → GlobalsOk Γ (g :: rest) Γ'

/-- Parameters with their types, between the scopes before and after them. -/
inductive ParamsOk (globals : String → Option Variable) :
    StaticScope → List Parameter → List Ty → StaticScope → Prop where
  | nil {Γ} : ParamsOk globals Γ [] [] Γ
  | cons {Γ Γ'} {p : Parameter} {x : Variable} {params types} : x.mutable = true →
      Hides L globals p.name x → ParamsOk globals (Γ.defineVariable p.name x) params types Γ' →
      ParamsOk globals Γ (p :: params) (x.type :: types) Γ'

end Typing

/-! ## §4 Returning -/

mutual

/-- A statement that ends, if it ends, by returning: a `RETURN`, or a choice among blocks that
all do and of which one is taken. -/
def Stmt.returns {ν : Notes} : Stmt ν → Bool
  | .giveBack _ => true
  | .choose _ yes no => Stmt.blockReturns yes && Stmt.blockReturns no
  | .switch _ cases => Stmt.casesReturn cases
  | _ => false

/-- A block with a statement that returns. -/
def Stmt.blockReturns {ν : Notes} : List (Stmt ν) → Bool
  | [] => false
  | s :: rest => s.returns || Stmt.blockReturns rest

/-- Cases with a default that all return. -/
def Stmt.casesReturn {ν : Notes} : List (Case ν) → Bool
  | [] => false
  | .mk _ none body :: _ => Stmt.blockReturns body
  | .mk _ (some _) body :: rest => Stmt.blockReturns body && Stmt.casesReturn rest

end

namespace Typing

variable (L : Limits)

/-- **Typed functions.** The body is typed in the scope of the definition with the parameters in a
frame of their own, and returns on all paths if nothing is no value for its result. -/
structure FunctionOk (globals : String → Option Variable) (Γ : StaticScope) (f : Function Typed) :
    Prop where
  outer : ∀ name, Γ.findVariable name = globals name
  body : ∃ Γ', ParamsOk L globals Γ.push f.params f.callee.signature.params Γ' ∧
    BlockOk L globals f.callee.signature.result Γ' f.body
  returns : L.blank f.callee.signature.result ∨ Stmt.blockReturns f.body = true

/-- Typed functions in order, each one in scope of itself and those after it. -/
inductive FunctionsOk (globals : String → Option Variable) :
    StaticScope → List (Function Typed) → StaticScope → Prop where
  | nil {Γ} : FunctionsOk globals Γ [] Γ
  | cons {Γ Γ' f rest} : f.callee.arity = f.arity →
      FunctionOk L globals (Γ.defineFunction f.name f.arity f.callee) f →
      FunctionsOk globals (Γ.defineFunction f.name f.arity f.callee) rest Γ' →
      FunctionsOk globals Γ (f :: rest) Γ'

end Typing

end DynImp
