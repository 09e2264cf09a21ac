import DynImp.Proofs.Typing.Checked

/-!
# The checker is sound for programs

A checked program is typed by the rules: its globals in order, then its functions, each in
the scope of all globals and of the functions up to itself.
-/

namespace DynImp

/-! ## §1 Limits on programs -/

namespace Program

/-- The global that a name stands for in function bodies: the last one of the name. -/
def global? (p : Program Typed) (name : String) : Option Typing.Variable :=
  (p.globals.reverse.find? fun g => g.name = name).map (·.binding)

/-- Some function of a name and number of parameters has this signature, a built-in one or one of
the program. -/
def Declares (p : Program Typed) (name : String) (arity : Nat) (σ : Signature) : Prop :=
  (∃ b : Builtin, b.name = name ∧ b.arity = arity ∧ b.signature = σ) ∨
    ∃ f ∈ p.functions, f.name = name ∧ f.arity = arity ∧ f.callee.signature = σ

end Program

namespace Typing

/-- A function with the signature `σ'` may be called where one with `σ` is expected. -/
def Limits.Agree (L : Limits) (σ σ' : Signature) : Prop :=
  (∀ entry ∈ σ.params.zip σ'.params, L.same entry.1 entry.2) ∧ L.same σ'.result σ.result

/-- **Programs within limits.** -/
structure Limits.AllowsProgram (L : Limits) (p : Program Typed) : Prop where
  exprs : ∀ e ∈ p.exprs, L.Allows e
  stmts : ∀ s ∈ p.stmts, L.AllowsStmt p.global? s
  blanks : ∀ g ∈ p.globals, g.value = none → L.blank g.binding.type
  params : ∀ f ∈ p.functions, ∀ entry ∈ f.params.zip f.callee.signature.params,
    ∀ g, p.global? entry.1.name = some g → L.same entry.2 g.type
  returns : ∀ f ∈ p.functions,
    L.blank f.callee.signature.result ∨ Stmt.blockReturns f.body = true
  callees : ∀ name arity σ σ', p.Declares name arity σ → p.Declares name arity σ' → L.Agree σ σ'

/-! ## §2 Globals -/

section Globals

variable {L : Limits}

theorem Keyed.defineVariable {Γ : StaticScope} (hΓ : Keyed Γ) (name : String) (x : Variable) :
    Keyed (Γ.defineVariable name x) := hΓ

theorem Keyed.define {env : Env} (hkeyed : Keyed env.scope) (name : String) (σ : Signature) :
    Keyed (env.define name σ).2.scope := by
  intro other arity f hf
  simp only [Env.define, Scope.findFunction_defineFunction] at hf
  split at hf
  · next h =>
      cases hf
      exact h.2.symm
  · exact hkeyed other arity f hf

theorem initial_keyed : Keyed Env.initial.scope := by
  have hroot : Keyed (Scope.root : StaticScope) := fun _ _ _ h => nomatch h
  have hfold : ∀ (bs : List Builtin) (env : Env), Keyed env.scope →
      Keyed (bs.foldl (fun env b => (env.define b.name b.signature).2) env).scope := by
    intro bs
    induction bs with
    | nil => exact fun _ h => h
    | cons b bs ih => exact fun env h => ih _ (h.define _ _)
  exact hfold Builtin.all ⟨.root, 0⟩ hroot

theorem checkGlobal_sound {env env' : Env} (hkeyed : Keyed env.scope) {g : Global Bare}
    {g' : Global Typed} (h : checkGlobal env g = .ok (g', env'))
    (hblank : g'.value = none → L.blank g'.binding.type)
    (hlimits : ∀ part ∈ Expr.someParts g'.value, L.Allows part) :
    g'.binding.mutable = g'.mutable ∧ Initial L env.scope g'.binding.type g'.value ∧
      env'.scope = env.scope.defineVariable g'.name g'.binding := by
  obtain ⟨written, type, value', -, hinitial, rfl, rfl⟩ := checkGlobal_ok h
  exact ⟨rfl, inferInitial_sound hkeyed hinitial hblank hlimits, rfl⟩

theorem checkGlobals_sound {gs : List (Global Bare)} {env env' : Env} {gs' : List (Global Typed)}
    (hkeyed : Keyed env.scope) (h : checkEach checkGlobal env gs = .ok (gs', env'))
    (hblanks : ∀ g ∈ gs', g.value = none → L.blank g.binding.type)
    (hlimits : ∀ g ∈ gs', ∀ part ∈ Expr.someParts g.value, L.Allows part) :
    GlobalsOk L env.scope gs' env'.scope ∧ Keyed env'.scope := by
  induction gs generalizing env gs' with
  | nil =>
      rw [checkEach] at h
      cases h
      exact ⟨.nil, hkeyed⟩
  | cons g gs ih =>
      obtain ⟨g', env₁, rest', hg, hrest, rfl⟩ := checkEach_cons_ok h
      rw [List.forall_mem_cons] at hblanks hlimits
      obtain ⟨hmutable, hinitial, hscope⟩ := checkGlobal_sound hkeyed hg hblanks.1 hlimits.1
      have hkeyed₁ : Keyed env₁.scope := by
        rw [hscope]
        exact hkeyed.defineVariable _ _
      obtain ⟨hok, hkeyed'⟩ := ih hkeyed₁ hrest hblanks.2 hlimits.2
      rw [hscope] at hok
      exact ⟨.cons hmutable hinitial hok, hkeyed'⟩

/-- After the globals a name stands for the last of them that has it. -/
theorem GlobalsOk.findVariable {Γ Γ' : StaticScope} {gs : List (Global Typed)}
    (h : GlobalsOk L Γ gs Γ') (name : String) :
    Γ'.findVariable name =
      ((gs.reverse.find? fun g => g.name = name).map (·.binding)).or (Γ.findVariable name) := by
  induction h with
  | nil => rfl
  | @cons Γ Γ' g rest _ _ _ ih =>
      rw [ih, List.reverse_cons, List.find?_append]
      -- A later global of the name hides this one.
      cases hfind : rest.reverse.find? fun g => g.name = name with
      | some found => rfl
      | none =>
          rw [Scope.findVariable_defineVariable]
          by_cases hname : name = g.name
          · simp [hname]
          · simp [hname, Ne.symm hname]

theorem GlobalsOk.findFunction {Γ Γ' : StaticScope} {gs : List (Global Typed)}
    (h : GlobalsOk L Γ gs Γ') (name : String) (arity : Nat) :
    Γ'.findFunction name arity = Γ.findFunction name arity := by
  induction h with
  | nil => rfl
  | cons _ _ _ ih => exact ih

end Globals

/-! ## §3 Functions -/

section Functions

variable {L : Limits} {globals : String → Option Variable}

variable (globals) in
theorem declareParams_ok (env : Env) {params : List Parameter} {types : List Ty}
    (hlength : types.length = params.length)
    (hhides : ∀ entry ∈ params.zip types, ∀ g, globals entry.1.name = some g →
      L.same entry.2 g.type) :
    ParamsOk L globals env.scope params types (declareParams env params types).scope ∧
      ∀ name arity, (declareParams env params types).scope.findFunction name arity =
        env.scope.findFunction name arity := by
  induction params generalizing env types with
  | nil =>
      obtain rfl := List.length_eq_zero_iff.mp hlength
      exact ⟨.nil, fun _ _ => rfl⟩
  | cons p params ih =>
      cases types with
      | nil => cases hlength
      | cons type types =>
          rw [List.zip_cons_cons, List.forall_mem_cons] at hhides
          obtain ⟨hok, hfind⟩ := ih (env.declare p.name true type).2 (Nat.succ.inj hlength) hhides.2
          exact ⟨.cons (x := (env.declare p.name true type).1) rfl hhides.1 hok, hfind⟩

theorem checkFunction_sound {env env' : Env} (hkeyed : Keyed env.scope)
    (hglobals : ∀ name, env.scope.findVariable name = globals name) {f : Function Bare}
    {f' : Function Typed} (h : checkFunction env f = .ok (f', env'))
    (hexprs : ∀ part ∈ Stmt.blockExprs f'.body, L.Allows part)
    (hparts : ∀ part ∈ Stmt.blockParts f'.body, L.AllowsStmt globals part)
    (hhides : ∀ entry ∈ f'.params.zip f'.callee.signature.params, ∀ g,
      globals entry.1.name = some g → L.same entry.2 g.type)
    (hreturns : L.blank f'.callee.signature.result ∨ Stmt.blockReturns f'.body = true) :
    f'.callee.arity = f'.arity ∧
      env'.scope = env.scope.defineFunction f'.name f'.arity f'.callee ∧
      FunctionOk L globals env'.scope f' := by
  obtain ⟨types, written, body', inner, htypes, -, hbody, rfl, rfl⟩ := checkFunction_ok h
  have hlength : types.length = f.params.length := (resolveParams_ok htypes).length_eq.symm
  have hdefined := hkeyed.define f.name ⟨types, written.getD .nil⟩
  obtain ⟨hparams, hfind⟩ := declareParams_ok globals
    (env.define f.name ⟨types, written.getD .nil⟩).2.enter hlength hhides
  have hkeyed' : Keyed (declareParams (env.define f.name ⟨types, written.getD .nil⟩).2.enter
      f.params types).scope := by
    -- Parameters define no functions, so the last one defined is the function itself.
    intro name arity g hg
    rw [hfind] at hg
    exact hdefined name arity g hg
  refine ⟨hlength, ?_, hglobals, ⟨_, hparams, ?_⟩, hreturns⟩
  · simp only [Env.leave, Env.define, Callee.arity, Function.arity, hlength]
  · exact checkBlock_sound f.body hbody hkeyed' hexprs hparts

theorem checkFunctions_sound {fs : List (Function Bare)} {env env' : Env}
    {fs' : List (Function Typed)} (hkeyed : Keyed env.scope)
    (hglobals : ∀ name, env.scope.findVariable name = globals name)
    (h : checkEach checkFunction env fs = .ok (fs', env'))
    (hexprs : ∀ f ∈ fs', ∀ part ∈ Stmt.blockExprs f.body, L.Allows part)
    (hparts : ∀ f ∈ fs', ∀ part ∈ Stmt.blockParts f.body, L.AllowsStmt globals part)
    (hhides : ∀ f ∈ fs', ∀ entry ∈ f.params.zip f.callee.signature.params, ∀ g,
      globals entry.1.name = some g → L.same entry.2 g.type)
    (hreturns : ∀ f ∈ fs', L.blank f.callee.signature.result ∨ Stmt.blockReturns f.body = true) :
    FunctionsOk L globals env.scope fs' env'.scope := by
  induction fs generalizing env fs' with
  | nil =>
      rw [checkEach] at h
      cases h
      exact .nil
  | cons f fs ih =>
      obtain ⟨f', env₁, rest', hf, hrest, rfl⟩ := checkEach_cons_ok h
      rw [List.forall_mem_cons] at hexprs hparts hhides hreturns
      obtain ⟨harity, hscope, hok⟩ := checkFunction_sound hkeyed hglobals hf hexprs.1 hparts.1
        hhides.1 hreturns.1
      have hkeyed₁ : Keyed env₁.scope := by
        intro name arity g hg
        rw [hscope, Scope.findFunction_defineFunction] at hg
        split at hg
        · next h =>
            cases hg
            rw [harity, h.2]
        · exact hkeyed name arity g hg
      have hglobals₁ : ∀ name, env₁.scope.findVariable name = globals name := hok.outer
      have hrest' := ih hkeyed₁ hglobals₁ hrest hexprs.2 hparts.2 hhides.2 hreturns.2
      rw [hscope] at hok hrest'
      exact .cons harity hok hrest'

end Functions

/-! ## §4 Programs -/

/-- **Typed programs.** -/
structure ProgramOk (L : Limits) (p : Program Typed) : Prop where
  items : ∃ Γ Γ', GlobalsOk L Env.initial.scope p.globals Γ ∧
    FunctionsOk L p.global? Γ p.functions Γ' ∧
    ∃ main, Γ'.findFunction "main" 0 = some main ∧ main.signature.result = .integer
  callees : ∀ name arity σ σ', p.Declares name arity σ → p.Declares name arity σ' → L.Agree σ σ'

/-- **Soundness of the checker.** A checked program within limits is typed within these limits. -/
theorem check_sound {p : Program Bare} {q : Program Typed} {L : Limits}
    (h : p.check = .ok q) (hlimits : L.AllowsProgram q) : ProgramOk L q := by
  obtain ⟨env, env', main, hglobals, hfunctions, hmain, haccepts⟩ := check_ok h
  obtain ⟨hexprs, hbodies⟩ := List.forall_mem_append.mp hlimits.exprs
  obtain ⟨hok, hkeyed⟩ := checkGlobals_sound initial_keyed hglobals hlimits.blanks
    (List.forall_mem_flatMap.mp hexprs)
  -- Function bodies see no variables but the globals.
  have hscope : ∀ name, env.scope.findVariable name = q.global? name := by
    intro name
    rw [hok.findVariable]
    exact Option.or_none ..
  have hfs := checkFunctions_sound hkeyed hscope hfunctions (List.forall_mem_flatMap.mp hbodies)
    (List.forall_mem_flatMap.mp hlimits.stmts) hlimits.params hlimits.returns
  have hresult : main.signature.result = .integer := by
    simpa [Ty.accepts, eq_comm] using haccepts
  exact ⟨⟨env.scope, env'.scope, hok, hfs, main, hmain, hresult⟩, hlimits.callees⟩

end Typing

end DynImp
