import DynImp.Proofs.Typing.Bare
import DynImp.Proofs.Typing.Inversion

/-!
# What the notes of a program have to be

The notes of a checked tree, said without the checker.  A name stands for what lexical
scoping picks at its place, and the type of an expression follows from the notes on its
parts.  Nothing here has a scope that is passed on and changed: what can be named at a
place is read off what stands before it in the text.

* **Layer A: sites.** The declarations before a place, block by block.
* **Layer B: expressions** at a site, and the values that are stored in slots.
* **Layer C: statements**, each at the site that those before it leave.
* **Layer D: items** and programs.
-/

namespace DynImp

namespace Typing

/-! ## §1 Sites -/

/-- The binding of a built-in function, the same in every program. -/
def Builtin.callee (b : Builtin) : Callee := ⟨Builtin.all.idxOf b, b.name, b.signature⟩

/-- **Site.** What can be named at a place of a program. -/
structure Site where
  /-- The variables that are declared before the place: block by block, the innermost block first,
  and in each block the latest one first.  The last block is that of the globals. -/
  blocks : List (List Variable)
  /-- The functions that are defined before the place, the latest one first. -/
  functions : List Callee

namespace Site

/-- The site at which a program starts. -/
def initial : Site := ⟨[[]], (Builtin.all.map Builtin.callee).reverse⟩

/-- The site at the start of a block. -/
def enter (S : Site) : Site := { S with blocks := [] :: S.blocks }

/-- The site behind a declaration. -/
def declare (S : Site) (x : Variable) : Site :=
  { S with blocks := (x :: S.blocks.headD []) :: S.blocks.tail }

/-- The site behind the head of a definition. -/
def define (S : Site) (f : Callee) : Site := { S with functions := f :: S.functions }

/-- **Lexical scoping.** The variable that a name stands for: the latest one of the name in the
innermost block that has one. -/
def findVariable (S : Site) (name : String) : Option Variable :=
  S.blocks.findSome? fun block => block.find? fun x => x.name = name

/-- The function that a call is for: the latest one of the name with as many parameters as there are
arguments. -/
def findFunction (S : Site) (name : String) (arity : Nat) : Option Callee :=
  S.functions.find? fun f => f.name = name ∧ f.arity = arity

/-- What a name stands for, in words: a variable of the name, behind which no other one of the name
is declared in its block, and none in any of the blocks inside that one. -/
theorem findVariable_eq_some_iff {S : Site} {name : String} {x : Variable} :
    S.findVariable name = some x ↔
      ∃ inside block outside, S.blocks = inside ++ block :: outside ∧
        (∀ b ∈ inside, ∀ y ∈ b, (y : Variable).name ≠ name) ∧
        ∃ later earlier, block = later ++ x :: earlier ∧ x.name = name ∧
          ∀ y ∈ later, y.name ≠ name := by
  simp only [findVariable, List.findSome?_eq_some_iff, List.find?_eq_some_iff_append,
    List.find?_eq_none, decide_eq_true_eq]
  constructor
  · rintro ⟨inside, block, outside, hblocks, ⟨hname, later, earlier, hblock, hlater⟩, hinside⟩
    exact ⟨inside, block, outside, hblocks, hinside, later, earlier, hblock, hname,
      fun y hy => by simpa using hlater y hy⟩
  · rintro ⟨inside, block, outside, hblocks, hinside, later, earlier, hblock, hname, hlater⟩
    exact ⟨inside, block, outside, hblocks,
      ⟨hname, later, earlier, hblock, fun y hy => by simpa using hlater y hy⟩, hinside⟩

end Site

end Typing

open Typing

/-! ## §2 Expressions -/

mutual

/-- **Annotated expressions.** Names stand for what lexical scoping picks, and every type follows
from the notes on the parts. -/
def Expr.Annotated (S : Site) : Expr Typed → Prop
  | .literal _ τ value => τ = .ofScalar value
  | .group _ τ inner => inner.Annotated S ∧ τ = inner.type
  | .binary τ op left right =>
    left.Annotated S ∧ right.Annotated S ∧ operatorType? op left.type right.type = some τ
  | .var _ τ x name => S.findVariable name = some x ∧ τ = x.type
  | .element _ τ x name index =>
    S.findVariable name = some x ∧ x.type = .list τ ∧ index.Annotated S ∧ index.type = .integer
  | .call _ τ f name args =>
    S.findFunction name args.length = some f ∧ Expr.AllAnnotated S args ∧
      List.Forall₂ (fun σ arg => σ.accepts arg.type = true) f.signature.params args ∧
      τ = f.signature.result
  | .list _ τ items =>
    Expr.AllAnnotated S items ∧ ∃ first ∈ items.head?, τ = .list first.type ∧
      ∀ item ∈ items, first.type.accepts item.type = true

/-- Annotated expressions in a row. -/
def Expr.AllAnnotated (S : Site) : List (Expr Typed) → Prop
  | [] => True
  | e :: rest => e.Annotated S ∧ Expr.AllAnnotated S rest

end

/-- **Stored values.** An expression in a slot of some type has a type that may be stored there.
The one exception is a list literal in a slot for lists: it carries the type of the slot, and each
of its items may be stored among the elements. -/
def Expr.Stored (S : Site) (target : Ty) (e : Expr Typed) : Prop :=
  match target, e with
  | .list σ, .list _ τ items =>
    τ = .list σ ∧ items ≠ [] ∧ Expr.AllAnnotated S items ∧
      ∀ item ∈ items, σ.accepts item.type = true
  | _, _ => e.Annotated S ∧ target.accepts e.type = true

/-- **Initial values.** A variable has the type that is written for it, and its value is stored in
it; if none is written it has the type of its value. -/
def Expr.Initial (S : Site) (written : Option Ty) (τ : Ty) (value : Option (Expr Typed)) : Prop :=
  match written, value with
  | some target, some e => τ = target ∧ e.Stored S target
  | some target, none => τ = target
  | none, some e => τ = e.type ∧ e.Annotated S
  | none, none => False

/-! ## §3 Statements -/

/-- The site behind a statement.  What is declared inside its blocks is out of sight again. -/
def Stmt.siteAfter (S : Site) : Stmt Typed → Site
  | .declare _ x .. => S.declare x
  | _ => S

mutual

/-- **Annotated statements.** -/
def Stmt.Annotated (S : Site) : Stmt Typed → Prop
  | .perform e => e.Annotated S
  | .declare _ x name typeName value =>
    x.name = name ∧ x.mutable = true ∧
      ∃ written, Written typeName written ∧ Expr.Initial S written x.type value
  | .assign receiver value => receiver.Annotated S ∧ value.Stored S receiver.type
  | .choose condition yes no =>
    condition.Annotated S ∧ Stmt.BlockAnnotated S.enter yes ∧ Stmt.BlockAnnotated S.enter no
  | .switch subject cases => subject.Annotated S ∧ Stmt.CasesAnnotated S cases
  | .loop condition body => condition.Annotated S ∧ Stmt.BlockAnnotated S.enter body
  | .giveBack value => value.Annotated S

/-- Annotated statements in a row. -/
def Stmt.BlockAnnotated (S : Site) : List (Stmt Typed) → Prop
  | [] => True
  | s :: rest => s.Annotated S ∧ Stmt.BlockAnnotated (s.siteAfter S) rest

/-- Annotated cases, each with a block of its own. -/
def Stmt.CasesAnnotated (S : Site) : List (Case Typed) → Prop
  | [] => True
  | .mk _ value body :: rest =>
    (∀ e ∈ value, e.Annotated S) ∧ Stmt.BlockAnnotated S.enter body ∧ Stmt.CasesAnnotated S rest

end

/-! ### Parts -/

section Parts

variable {S : Site}

@[simp] theorem Expr.allAnnotated_iff {es : List (Expr Typed)} :
    Expr.AllAnnotated S es ↔ ∀ e ∈ es, e.Annotated S := by
  induction es with
  | nil => simp [Expr.AllAnnotated]
  | cons e es ih => simp [Expr.AllAnnotated, ih]

theorem Expr.Annotated.inner {e : Expr Typed} (h : e.Annotated S) :
    ∀ d ∈ e.inner, d.Annotated S := by
  cases e with
  | literal | var => exact fun _ hd => nomatch hd
  | group => exact List.forall_mem_singleton.mpr h.1
  | binary => exact List.forall_mem_cons.mpr ⟨h.1, List.forall_mem_singleton.mpr h.2.1⟩
  | element => exact List.forall_mem_singleton.mpr h.2.2.1
  | call => exact Expr.allAnnotated_iff.mp h.2.1
  | list => exact Expr.allAnnotated_iff.mp h.1

theorem Expr.Stored.inner {target : Ty} {e : Expr Typed} (h : e.Stored S target) :
    ∀ d ∈ e.inner, d.Annotated S := by
  unfold Expr.Stored at h
  split at h
  · exact Expr.allAnnotated_iff.mp h.2.2.1
  · exact h.1.inner

/-- An initial value is stored, or annotated by itself. -/
theorem Expr.Initial.value {written : Option Ty} {τ : Ty} {value : Option (Expr Typed)}
    (h : Expr.Initial S written τ value) {e : Expr Typed} (he : e ∈ value) :
    e.Annotated S ∨ ∃ target, e.Stored S target := by
  obtain rfl := Option.mem_def.mp he
  cases written with
  | some target => exact Or.inr ⟨target, h.2⟩
  | none => exact Or.inl h.2

/-- Functions stay in sight behind a statement, and no statement defines any. -/
@[simp] theorem Stmt.functions_siteAfter (s : Stmt Typed) :
    (s.siteAfter S).functions = S.functions := by
  cases s <;> rfl

theorem Stmt.BlockAnnotated.mem {block : List (Stmt Typed)} (h : Stmt.BlockAnnotated S block) :
    ∀ t ∈ block, ∃ S' : Site, S'.functions = S.functions ∧ t.Annotated S' := by
  induction block generalizing S with
  | nil => exact fun _ ht => nomatch ht
  | cons s block ih =>
      rw [List.forall_mem_cons]
      refine ⟨⟨S, rfl, h.1⟩, fun t ht => ?_⟩
      obtain ⟨S', hfunctions, ht⟩ := ih h.2 t ht
      exact ⟨S', hfunctions.trans s.functions_siteAfter, ht⟩

theorem Stmt.CasesAnnotated.mem {cases : List (Case Typed)} (h : Stmt.CasesAnnotated S cases) :
    ∀ c ∈ cases, (∀ e ∈ c.value, e.Annotated S) ∧ Stmt.BlockAnnotated S.enter c.body := by
  induction cases with
  | nil => exact fun _ hc => nomatch hc
  | cons c cases ih =>
      obtain ⟨o, value, body⟩ := c
      exact List.forall_mem_cons.mpr ⟨⟨h.1, h.2.1⟩, ih h.2.2⟩

/-- Every expression right inside a statement is annotated, or stored in a slot. -/
theorem Stmt.Annotated.operands {s : Stmt Typed} (h : s.Annotated S) :
    ∀ e ∈ s.operands, e.Annotated S ∨ ∃ target, e.Stored S target := by
  cases s with
  | perform | giveBack => exact List.forall_mem_singleton.mpr (Or.inl h)
  | declare =>
      obtain ⟨-, -, written, -, hvalue⟩ := h
      exact fun e he => hvalue.value (Option.mem_toList.mp he)
  | assign =>
      exact List.forall_mem_cons.mpr
        ⟨Or.inl h.1, List.forall_mem_singleton.mpr (Or.inr ⟨_, h.2⟩)⟩
  | choose | loop => exact List.forall_mem_singleton.mpr (Or.inl h.1)
  | switch =>
      refine List.forall_mem_cons.mpr ⟨Or.inl h.1, List.forall_mem_flatMap.mpr fun c hc e he => ?_⟩
      exact Or.inl ((h.2.mem c hc).1 e (Option.mem_toList.mp he))

/-- Every statement right inside a statement is annotated at a site with the same functions. -/
theorem Stmt.Annotated.inner {s : Stmt Typed} (h : s.Annotated S) :
    ∀ t ∈ s.inner, ∃ S' : Site, S'.functions = S.functions ∧ t.Annotated S' := by
  cases s with
  | perform | declare | assign | giveBack => exact fun _ ht => nomatch ht
  | choose => exact List.forall_mem_append.mpr ⟨h.2.1.mem, h.2.2.mem⟩
  | switch => exact List.forall_mem_flatMap.mpr fun c hc => (h.2.mem c hc).2.mem
  | loop => exact h.2.mem

end Parts

/-! ## §4 Items -/

/-- **Annotated globals.** -/
structure Global.Annotated (S : Site) (g : Global Typed) : Prop where
  name : g.binding.name = g.name
  mutable : g.binding.mutable = g.mutable
  /-- The type that is written for a list is that of its elements. -/
  type : ∃ written, Written g.typeName written ∧
    Expr.Initial S (if g.isList then written.map .list else written) g.binding.type g.value

/-- The variables of parameters, numbered from `id` on. -/
def Parameter.variables : Nat → List Parameter → List Ty → List Variable
  | id, p :: params, τ :: types =>
    ⟨id, p.name, true, τ⟩ :: Parameter.variables (id + 1) params types
  | _, _, _ => []

/-- The variables of the parameters of a function, which are numbered right after the function. -/
def Function.variables (f : Function Typed) : List Variable :=
  Parameter.variables (f.callee.id + 1) f.params f.callee.signature.params

/-- The numbers of the local variables among statements. -/
def Stmt.numbers (block : List (Stmt Typed)) : List Nat :=
  (block.filterMap Stmt.local?).map fun l : Local Typed => (l.binding : Variable).id

/-- The numbers of a function, of its parameters and of its local variables. -/
def Function.numbers (f : Function Typed) : List Nat :=
  f.callee.id :: (f.variables.map (·.id) ++ Stmt.numbers (Stmt.blockParts f.body))

/-- **Annotated functions**, at a site that they are already defined at.  The parameters are in the
block of the body. -/
structure Function.Annotated (S : Site) (f : Function Typed) : Prop where
  name : f.callee.name = f.name
  params : List.Forall₂ (fun (p : Parameter) τ => ∃ written, Written p.typeName written ∧
    τ = written.getD .any) f.params f.callee.signature.params
  result : ∃ written, Written f.returnTypeName written ∧
    f.callee.signature.result = written.getD .nil
  body : Stmt.BlockAnnotated (f.variables.foldl Site.declare S.enter) f.body

namespace Program

/-- The site behind some globals. -/
def siteOfGlobals (gs : List (Global Typed)) : Site :=
  (gs.map Global.binding).foldl Site.declare .initial

/-- The site behind all globals and some functions. -/
def siteOfFunctions (q : Program Typed) (fs : List (Function Typed)) : Site :=
  (fs.map Function.callee).foldl Site.define (siteOfGlobals q.globals)

/-- **Annotated programs.** A global sees those before it, a function all globals, itself and the
functions before it. -/
structure Annotated (q : Program Typed) : Prop where
  globals : ∀ before g after, q.globals = before ++ g :: after →
    g.Annotated (siteOfGlobals before)
  functions : ∀ before f after, q.functions = before ++ f :: after →
    f.Annotated (q.siteOfFunctions (before ++ [f]))

/-! ### Numbers -/

/-- The numbers of all declarations of a program: of its globals, and of its functions, each with
its parameters and its local variables. -/
def numbers (q : Program Typed) : List Nat :=
  q.globals.map (·.binding.id) ++ q.functions.flatMap Function.numbers

end Program

end DynImp
