import DynImp.Proofs.Run.Agreement
import DynImp.Proofs.Run.Lockstep

/-!
# Dynamic and lexical scoping

A body runs inside the scope of its caller, where it can see the local variables of the
caller.  It does not ask for them: the checker has found every name of the body among the
globals, the parameters and the local variables of the body itself.  Only a global can be
mistaken, if a variable of a caller has its name.  As long as none has, no run can tell
whether bodies run inside the scope of their callers or inside the outermost one.

* **Layer A: names in sight** at the places of a checked tree.
* **Layer B: scopes** of a caller, beside those of the same caller under lexical scoping.
* **Layer C: runs.**
-/

namespace DynImp

open Typing Eval

/-! ## §1 Names in sight -/

namespace Typing.Site

/-- The names that stand for a variable at a site. -/
def names (S : Site) : Set String := {name | (S.findVariable name).isSome}

variable {S : Site}

theorem mem_names_iff {name : String} : name ∈ S.names ↔ (S.findVariable name).isSome := Iff.rfl

theorem mem_names {name : String} {x : Variable} (h : S.findVariable name = some x) :
    name ∈ S.names :=
  Option.isSome_of_mem h

@[simp] theorem names_initial : initial.names = ∅ := by
  ext name
  simp [mem_names_iff, initial, findVariable]

@[simp] theorem names_enter (S : Site) : S.enter.names = S.names := rfl

@[simp] theorem names_define (S : Site) (f : Callee) : (S.define f).names = S.names := rfl

@[simp] theorem names_declare (S : Site) (x : Variable) :
    (S.declare x).names = insert x.name S.names := by
  ext name
  rw [Set.mem_insert_iff, mem_names_iff, mem_names_iff, findVariable_declare]
  by_cases h : name = x.name <;> simp [h]

@[simp] theorem names_foldl_define (S : Site) (fs : List Callee) :
    (fs.foldl define S).names = S.names := by
  induction fs generalizing S with
  | nil => rfl
  | cons f fs ih => exact ih _

/-- The parameters of a function are in sight in its body. -/
theorem names_params (S : Site) (id : Nat) {params : List Parameter} {types : List Ty}
    (hlength : params.length = types.length) :
    ((Parameter.variables id params types).foldl declare S).names =
      Parameter.names S.names params := by
  induction params generalizing S id types with
  | nil => rfl
  | cons p params ih =>
      cases types with
      | nil => cases hlength
      | cons τ types =>
          rw [Parameter.variables, List.foldl_cons, ih _ _ (Nat.succ.inj hlength), names_declare]
          rfl

end Typing.Site

section Trees

variable {S : Site}

/-- An expression uses names that are in sight. -/
theorem Expr.Annotated.alike {e : Expr Typed} (h : e.Annotated S) : Expr.Alike S.names e e := by
  induction e using Expr.induct_inner with
  | step e ih =>
      have hinner : ∀ d ∈ e.inner, Expr.Alike S.names d d := fun d hd => ih d hd (h.inner d hd)
      cases e with
      | literal => exact .literal
      | group => exact .group (hinner _ List.mem_cons_self)
      | binary =>
          exact .binary (hinner _ List.mem_cons_self)
            (hinner _ (List.mem_cons_of_mem _ List.mem_cons_self))
      | var => exact .var (Site.mem_names h.1)
      | element => exact .element (Site.mem_names h.1) (hinner _ List.mem_cons_self)
      | call => exact .call (List.forall₂_same.mpr hinner)
      | list => exact .list (List.forall₂_same.mpr hinner)

theorem Expr.Stored.alike {target : Ty} {e : Expr Typed} (h : e.Stored S target) :
    Expr.Alike S.names e e := by
  have hinner := h.inner
  unfold Expr.Stored at h
  split at h
  · exact .list (List.forall₂_same.mpr fun d hd => (hinner d hd).alike)
  · exact h.1.alike

theorem Expr.Initial.alike {written : Option Ty} {τ : Ty} {value : Option (Expr Typed)}
    (h : Expr.Initial S written τ value) : Option.Rel (Expr.Alike S.names) value value := by
  cases value with
  | none => exact .none
  | some e =>
      apply Option.Rel.some
      rcases h.value rfl with hannotated | ⟨target, hstored⟩
      · exact hannotated.alike
      · exact hstored.alike

/-- All local variables of a statement have names from a set. -/
def Stmt.DeclaresIn (free : Set String) (s : Stmt Typed) : Prop :=
  ∀ t ∈ s.parts, ∀ l ∈ t.local?, l.name ∈ free

variable {free : Set String}

theorem Stmt.DeclaresIn.inner {s : Stmt Typed} (h : s.DeclaresIn free) :
    ∀ t ∈ s.inner, t.DeclaresIn free := by
  rw [DeclaresIn, Stmt.parts_eq, List.forall_mem_cons, List.forall_mem_flatMap] at h
  exact h.2

theorem Stmt.BlockAnnotated.alike {block : List (Stmt Typed)}
    (halike : ∀ s ∈ block, ∀ {S : Site}, s.Annotated S →
      Stmt.Alike free S.names s s (s.siteAfter S).names)
    (h : Stmt.BlockAnnotated S block) : BlockAlike free S.names block block := by
  induction block generalizing S with
  | nil => exact .nil
  | cons s block ih =>
      rw [List.forall_mem_cons] at halike
      exact .cons (halike.1 h.1) (ih halike.2 h.2)

theorem Stmt.CasesAnnotated.alike {cases : List (Case Typed)}
    (halike : ∀ c ∈ cases, ∀ s ∈ c.body, ∀ {S : Site}, s.Annotated S →
      Stmt.Alike free S.names s s (s.siteAfter S).names)
    (h : Stmt.CasesAnnotated S cases) : CasesAlike free S.names cases cases := by
  induction cases with
  | nil => exact .nil
  | cons c cases ih =>
      obtain ⟨o, value, body⟩ := c
      rw [List.forall_mem_cons] at halike
      have hvalue : Option.Rel (Expr.Alike S.names) value value := by
        cases value with
        | none => exact .none
        | some e => exact .some (h.1 e rfl).alike
      have hbody := Stmt.BlockAnnotated.alike (S := S.enter) halike.1 h.2.1
      exact .cons hvalue hbody (ih halike.2 h.2.2)

/-- A statement uses names that are in sight, and what it declares is in sight behind it. -/
theorem Stmt.Annotated.alike {s : Stmt Typed} (hfree : s.DeclaresIn free) (h : s.Annotated S) :
    Stmt.Alike free S.names s s (s.siteAfter S).names := by
  induction s using Stmt.induct_inner generalizing S with
  | step s ih =>
      have hinner : ∀ t ∈ s.inner, ∀ {S : Site}, t.Annotated S →
          Stmt.Alike free S.names t t (t.siteAfter S).names :=
        fun t ht _ => ih t ht (hfree.inner t ht)
      cases s with
      | perform e => exact .perform h.alike
      | declare o x name typeName value =>
          obtain ⟨hname, -, written, -, hvalue⟩ := h
          rw [Stmt.siteAfter, Site.names_declare, hname]
          exact .declare (hfree _ List.mem_cons_self _ rfl) hvalue.alike
      | assign => exact .assign h.1.alike h.2.alike
      | choose =>
          rw [Stmt.inner, List.forall_mem_append] at hinner
          exact .choose h.1.alike (Stmt.BlockAnnotated.alike (S := S.enter) hinner.1 h.2.1)
            (Stmt.BlockAnnotated.alike (S := S.enter) hinner.2 h.2.2)
      | switch =>
          rw [Stmt.inner, List.forall_mem_flatMap] at hinner
          exact .switch h.1.alike (h.2.alike hinner)
      | loop => exact .loop h.1.alike (Stmt.BlockAnnotated.alike (S := S.enter) hinner h.2)
      | giveBack => exact .giveBack h.alike

end Trees

variable {ν : Notes}

theorem Stmt.inner_bare (s : Stmt ν) : s.bare.inner = s.inner.map Stmt.bare := by
  cases s with
  | switch subject cases =>
      have hbody : ∀ c : Case ν, c.bare.body = c.body.map Stmt.bare := by
        rintro ⟨o, value, body⟩
        exact Stmt.blockBare_eq body
      simp [bare, inner, List.flatMap_map, List.map_flatMap, hbody]
  | _ => simp [bare, inner]

theorem Stmt.parts_bare (s : Stmt ν) : s.bare.parts = s.parts.map Stmt.bare := by
  induction s using Stmt.induct_inner with
  | step s ih =>
      rw [Stmt.parts_eq, Stmt.parts_eq s, Stmt.inner_bare, List.map_cons, List.flatMap_map,
        List.map_flatMap]
      exact congrArg _ (List.flatMap_congr ih)

namespace Program

theorem stmts_bare (p : Program ν) : p.bare.stmts = p.stmts.map Stmt.bare := by
  simp only [stmts, bare, List.flatMap_map, List.map_flatMap, Function.bare, Stmt.blockParts_eq,
    Stmt.parts_bare]

/-- **Unshadowed programs.** No parameter and no local variable has the name of a global. -/
structure Unshadowed (p : Program ν) : Prop where
  params : ∀ f ∈ p.functions, ∀ x ∈ f.params, ∀ g ∈ p.globals, x.name ≠ g.name
  locals : ∀ l ∈ p.locals, ∀ g ∈ p.globals, l.name ≠ g.name

instance : DecidablePred (Unshadowed : Program ν → Prop) := fun p =>
  decidable_of_iff
    ((∀ f ∈ p.functions, ∀ x ∈ f.params, ∀ g ∈ p.globals, x.name ≠ g.name) ∧
      ∀ l ∈ p.locals, ∀ g ∈ p.globals, l.name ≠ g.name)
    ⟨fun h => ⟨h.1, h.2⟩, fun h => ⟨h.params, h.locals⟩⟩

variable {q : Program Typed}

/-- Notes have nothing to do with names. -/
theorem Unshadowed.of_bare (h : q.bare.Unshadowed) : q.Unshadowed := by
  have hglobals : ∀ g ∈ q.globals, g.bare ∈ q.bare.globals :=
    fun g hg => List.mem_map_of_mem hg
  constructor
  · intro f hf x hx g hg
    exact h.params f.bare (List.mem_map_of_mem hf) x hx g.bare (hglobals g hg)
  · intro l hl g hg
    obtain ⟨s, hs, hlocal⟩ := List.mem_filterMap.mp hl
    have hlocal' : ∃ l' ∈ s.bare.local?, l'.name = l.name := by
      cases s with
      | declare => cases hlocal; exact ⟨_, rfl, rfl⟩
      | _ => cases hlocal
    obtain ⟨l', hl', hname⟩ := hlocal'
    have hs' : s.bare ∈ q.bare.stmts := stmts_bare q ▸ List.mem_map_of_mem hs
    rw [← hname]
    exact h.locals l' (List.mem_filterMap.mpr ⟨_, hs', hl'⟩) g.bare (hglobals g hg)

theorem names_siteOfGlobals (gs : List (Global Typed)) :
    (siteOfGlobals gs).names = {name | ∃ g ∈ gs, g.binding.name = name} := by
  induction gs using List.reverseRecOn with
  | nil =>
      ext name
      simp [siteOfGlobals]
  | append_singleton gs g ih =>
      rw [siteOfGlobals] at ih
      rw [siteOfGlobals, List.map_append, List.foldl_append, List.map_singleton, List.foldl_cons,
        List.foldl_nil, Site.names_declare, ih]
      ext name
      simp [or_comm, eq_comm]

/-- The names of the globals, which are in sight in all bodies. -/
theorem Annotated.mem_names_iff (hq : q.Annotated) {name : String} :
    name ∈ (siteOfGlobals q.globals).names ↔ ∃ g ∈ q.globals, g.name = name := by
  rw [names_siteOfGlobals]
  constructor <;> rintro ⟨g, hg, rfl⟩ <;> obtain ⟨before, after, hsplit⟩ := List.append_of_mem hg
  · exact ⟨g, hg, (hq.globals before g after hsplit).name.symm⟩
  · exact ⟨g, hg, (hq.globals before g after hsplit).name⟩

/-- The globals that are left use names of those before them. -/
theorem Annotated.globals_alike (hq : q.Annotated) {before after : List (Global Typed)}
    (hsplit : q.globals = before ++ after) :
    GlobalsAlike Set.univ (siteOfGlobals before).names after after
      (siteOfGlobals q.globals).names := by
  induction after generalizing before with
  | nil =>
      rw [hsplit, List.append_nil]
      exact .nil
  | cons g after ih =>
      have hg := hq.globals before g after hsplit
      obtain ⟨written, -, hvalue⟩ := hg.type
      -- This global is in sight in those behind it.
      have hsplit' : q.globals = (before ++ [g]) ++ after := by simp [hsplit]
      have hrest := ih hsplit'
      refine .cons rfl rfl (Set.mem_univ _) hvalue.alike ?_
      rwa [siteOfGlobals, List.map_append, List.foldl_append, List.map_singleton, List.foldl_cons,
        List.foldl_nil, Site.names_declare, hg.name] at hrest

/-- A function uses the globals, its parameters and its own local variables. -/
theorem Annotated.defined_alike (hq : q.Annotated) (hunshadowed : q.Unshadowed)
    {f : Function Typed} (hf : f ∈ q.functions) :
    Callable.Alike (siteOfGlobals q.globals).namesᶜ (siteOfGlobals q.globals).names f.arity
      (.defined f) (.defined f) := by
  obtain ⟨before, after, hsplit⟩ := List.append_of_mem hf
  have hannotated := hq.functions before f after hsplit
  refine .defined rfl rfl ?_ ?_
  · intro p hp hglobal
    obtain ⟨g, hg, hname⟩ := hq.mem_names_iff.mp hglobal
    exact hunshadowed.params f hf p hp g hg hname.symm
  · -- What is not shadowed is declared outside the names of the globals.
    have hstmts : ∀ s ∈ f.body, s.DeclaresIn (siteOfGlobals q.globals).namesᶜ := by
      intro s hs t ht l hl hglobal
      obtain ⟨g, hg, hname⟩ := hq.mem_names_iff.mp hglobal
      have hmem : t ∈ q.stmts := by
        refine List.mem_flatMap.mpr ⟨f, hf, ?_⟩
        rw [Stmt.blockParts_eq]
        exact List.mem_flatMap.mpr ⟨s, hs, ht⟩
      exact hunshadowed.locals l (List.mem_filterMap.mpr ⟨t, hmem, hl⟩) g hg hname.symm
    have hbody := hannotated.body.alike fun s hs _ hS => hS.alike (hstmts s hs)
    rwa [Function.variables, Site.names_params _ _ hannotated.params.length_eq, Site.names_enter,
      siteOfFunctions, Site.names_foldl_define] at hbody

end Program

/-! ## §2 Scopes -/

namespace Eval

variable {ν : Notes}

@[simp] theorem outer_defineAll (s : RuntimeScope ν) (fs : List (Function ν)) :
    (defineAll s fs).outer = s.outer := by
  induction fs generalizing s with
  | nil => rfl
  | cons f fs ih => exact ih _

/-- **Scopes of a caller**: the first under dynamic scoping, the second under lexical scoping.
Besides the names in sight they agree in what a body needs that is called from here: under dynamic
scoping the globals are not hidden, and under lexical scoping their frame is the outermost one. -/
structure Beside (top : RuntimeScope ν) (globals names : Set String) (s s' : RuntimeScope ν) :
    Prop where
  sight : ∀ name ∈ names, s.findVariable name = s'.findVariable name
  globals : ∀ name ∈ globals, s.findVariable name = top.findVariable name
  outermost : s'.outer.getLast? = some top.inner
  functions : s.findFunction = top.findFunction
  functions' : s'.findFunction = top.findFunction

namespace Beside

variable {top s s' : RuntimeScope ν} {globals names : Set String}

theorem push (h : Beside top globals names s s') : Beside top globals names s.push s'.push where
  sight := h.sight
  globals := h.globals
  outermost := by
    rw [Scope.push, List.getLast?_cons, h.outermost]
    rfl
  functions := h.functions
  functions' := h.functions'

theorem declare (h : Beside top globals names s s') {name : String} (hname : name ∉ globals)
    (cell : Cell) : Beside top globals (insert name names) (s.defineVariable name cell)
      (s'.defineVariable name cell) where
  sight other hother := by
    rw [Scope.findVariable_defineVariable, Scope.findVariable_defineVariable]
    by_cases heq : other = name
    · rw [if_pos heq, if_pos heq]
    · rw [if_neg heq, if_neg heq]
      exact h.sight other (hother.resolve_left heq)
  globals other hother := by
    have hne : other ≠ name := fun heq => hname (heq ▸ hother)
    rw [Scope.findVariable_defineVariable, if_neg hne]
    exact h.globals other hother
  outermost := h.outermost
  functions := h.functions
  functions' := h.functions'

/-- The frame of a body is opened inside the scope of the caller on one side, and inside the
outermost scope on the other. -/
theorem enter (h : Beside top globals names s s') (htop : top.outer = []) :
    Beside top globals globals s.push s'.outermost.push := by
  have houtermost : s'.outermost = top := by
    rw [Scope.outermost, h.outermost]
    cases top
    cases htop
    rfl
  rw [houtermost]
  exact {
    sight := h.globals
    globals := h.globals
    outermost := by rw [Scope.push, htop]; rfl
    functions := h.functions
    functions' := rfl }

theorem start (htop : top.outer = []) : Beside top globals globals top.push top.outermost.push := by
  have houtermost : top.outermost = top := by rw [Scope.outermost, htop]; rfl
  rw [houtermost]
  exact {
    sight := fun _ _ => rfl
    globals := fun _ _ => rfl
    outermost := by rw [Scope.push, htop]; rfl
    functions := rfl
    functions' := rfl }

end Beside

/-- A function that is found on both sides. -/
theorem Found.of_eq {free home : Set String} {arity : Nat} {enter : Prop} {s s' : RuntimeScope ν}
    {name : String} (hfind : s'.findFunction name arity = s.findFunction name arity)
    (halike : ∀ c, s.findFunction name arity = some c → Callable.Alike free home arity c c)
    (henter : ∀ f, s.findFunction name arity = some (.defined f) → enter) :
    Found free home arity enter (s.lookupFunction name arity) (s'.lookupFunction name arity) := by
  rw [Scope.lookupFunction, Scope.lookupFunction, hfind]
  cases hfound : s.findFunction name arity with
  | none => exact .unknown
  | some c => exact .known (halike c hfound) fun f hf => henter f (hf ▸ hfound)

/-- Runs that have not left the outermost scope: they are the same, and only built-in functions can
be called. -/
def beforeMain : Lockstep (.dynamic : Discipline ν) (.lexical : Discipline ν) where
  free := Set.univ
  home := ∅
  scopes _ s s' := s = s' ∧ s.findFunction = builtins.findFunction
  find h _ := by rw [h.1]
  resolve := by
    rintro names s _ ⟨rfl, hfunctions⟩ - - name arity
    -- No function of the program is defined yet, so no body is entered.
    have hbuiltin : ∀ c, s.findFunction name arity = some c → ∃ b, c = .builtin b := by
      intro c hc
      rw [hfunctions] at hc
      have hforce := (findFunction_defineAll [] name arity).symm.trans hc
      have hmem := (Program.mem_of_inForce hforce).1
      rw [definitions, List.map_nil, List.append_nil] at hmem
      obtain ⟨b, -, rfl⟩ := List.mem_map.mp hmem
      exact ⟨b, rfl⟩
    refine .of_eq rfl (fun c hc => ?_) (fun f hf => ?_)
    · obtain ⟨b, rfl⟩ := hbuiltin c hc
      exact .builtin
    · obtain ⟨b, hb⟩ := hbuiltin _ hf
      cases hb
  push := by
    rintro names s _ ⟨rfl, hfunctions⟩
    exact ⟨rfl, hfunctions⟩
  declare := by
    rintro names s _ name cell ⟨rfl, hfunctions⟩ -
    exact ⟨rfl, hfunctions⟩

/-- Runs from `main` on, which is called from a scope `top` that has one frame. -/
def fromMain (top : RuntimeScope ν) (htop : top.outer = []) (globals : Set String)
    (halike : ∀ name arity c, top.findFunction name arity = some c →
      Callable.Alike globalsᶜ globals arity c c) :
    Lockstep (.dynamic : Discipline ν) (.lexical : Discipline ν) where
  free := globalsᶜ
  home := globals
  scopes := Beside top globals
  find h hname := h.sight _ hname
  resolve {names s s'} h _ _ name arity := by
    have hfind : s'.findFunction name arity = s.findFunction name arity := by
      rw [h.functions, h.functions']
    exact .of_eq hfind (fun c hc => halike name arity c (h.functions ▸ hc)) fun _ _ => h.enter htop
  push h := h.push
  declare cell h hname := h.declare hname cell

end Eval

/-! ## §3 Runs -/

namespace Program

/-- The functions that can be called from `main` on. -/
theorem Annotated.found_alike {q : Program Typed} (hq : q.Annotated) (hunshadowed : q.Unshadowed)
    {s : RuntimeScope Typed} (hs : s.findFunction = builtins.findFunction) {name : String}
    {arity : Nat} {c : Callable Typed}
    (hc : (defineAll s q.functions).findFunction name arity = some c) :
    Callable.Alike (siteOfGlobals q.globals).namesᶜ (siteOfGlobals q.globals).names arity c c := by
  rw [defineAll, Scope.findFunction_defineEach, hs, ← Scope.findFunction_defineEach] at hc
  obtain ⟨hmem, -, harity⟩ := mem_of_inForce ((findFunction_defineAll _ _ _).symm.trans hc)
  rcases List.mem_append.mp hmem with hmem | hmem
  · obtain ⟨b, -, rfl⟩ := List.mem_map.mp hmem
    exact .builtin
  · obtain ⟨f, hf, rfl⟩ := List.mem_map.mp hmem
    cases harity
    exact hq.defined_alike hunshadowed hf

/-- **Scoping cannot be observed** without shadowing.  If no parameter and no local variable of a
checked program has the name of a global, then its runs are the same under dynamic and under
lexical scoping, with any bound on the depth: they end with the same value or the same fault, or
they both do not end within the bound, and they print the same. -/
theorem lexical_eq_dynamic {p : Program Bare} {q : Program Typed} (h : p.check = .ok q)
    (hunshadowed : p.Unshadowed) (n : Nat) : q.runUnder .lexical n = q.run n := by
  obtain ⟨rfl, hq, -⟩ := check_noted h
  have hq' : q.Unshadowed := .of_bare hunshadowed
  funext w
  refine (beforeMain.runUnder_eq ⟨rfl, rfl⟩ (hq.globals_alike (List.nil_append _).symm) ?_ n w).symm
  rintro s _ ⟨rfl, hfunctions⟩ houter
  -- From here on the scope that `main` is called from is the outermost one of every scope.
  have htop : (defineAll s q.functions).outer = [] := (outer_defineAll s _).trans houter
  refine ⟨fromMain _ htop _ fun _ _ _ => hq.found_alike hq' hfunctions, ?_⟩
  refine .of_eq rfl (fun c hc => hq.found_alike hq' hfunctions hc) fun _ _ => ?_
  exact Beside.start htop

end Program

/-- A program whose functions call each other while both have local variables of the same names,
and assign to a global. -/
def accumulating : String :=
  "VAR total = 0;
  FUN add(n: Integer): Integer DO
    LET i = 0;
    WHILE i < n DO total = total + i; i = i + 1; END
    IF n < 2 DO RETURN total; ELSE RETURN add(n - 1); END
  END
  FUN main(): Integer DO LET i = 4; LET n = add(i); RETURN 100 * i + n; END"

theorem accumulating_lexical : Source.ChecksTo accumulating fun q =>
    (q.run 60 (.start .recording)).1 = .done (.integer 410) ∧
      ∀ n, q.runUnder .lexical n = q.run n := by
  have hchecks : Source.ChecksTo accumulating fun q =>
      q.bare.Unshadowed ∧ (q.run 60 (.start .recording)).1 = .done (.integer 410) := by
    decide +kernel
  obtain ⟨q, hcheck, hunshadowed, hrun⟩ := hchecks
  obtain ⟨p, hp⟩ := Source.check_ok hcheck
  obtain ⟨rfl, -⟩ := check_noted hp
  exact ⟨q, hcheck, hrun, fun n => Program.lexical_eq_dynamic hp hunshadowed n⟩

/-- A local variable that has the name of a global takes its place in the functions that are called
from its block, but not under lexical scoping. -/
example : Source.ChecksTo "VAR x = 1; FUN get(): Integer DO RETURN x; END
    FUN main(): Integer DO LET x = 2; RETURN get(); END" fun q =>
      (q.run 20 (.start .recording)).1 = .done (.integer 2) ∧
        (q.runUnder .lexical 20 (.start .recording)).1 = .done (.integer 1) := by
  decide +kernel

end DynImp
