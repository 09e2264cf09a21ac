import DynImp.Proofs.Grammar.Trees
import DynImp.Proofs.Typing.Inversion
import DynImp.Proofs.Typing.Parts
import DynImp.Proofs.Typing.Rules

/-!
# The checker is sound

What the checker accepts is typed by the rules, within all limits that the accepted tree
keeps.  The proof goes by the ways in which the checker accepts, part by part of the tree.
-/

namespace DynImp

namespace Typing

/-! ## §1 Expressions -/

/-- Functions are found under their own number of parameters. -/
def Keyed (Γ : StaticScope) : Prop :=
  ∀ name arity f, Γ.findFunction name arity = some f → f.arity = arity

/-- An expression whose own operands are as the limits demand. -/
def Limits.Allows (L : Limits) (e : Expr Typed) : Prop :=
  ∀ τ left right, e = .binary τ .power left right → L.power left right

theorem Fits.length_eq {L : Limits} {Γ : StaticScope} {es : List (Expr Typed)} {slots : List Ty}
    (h : Fits L Γ es slots) : es.length = slots.length := by
  induction slots generalizing es with
  | nil => cases h; rfl
  | cons τ slots ih =>
      cases h with
      | cons _ _ hrest => exact congrArg Nat.succ (ih hrest)

section Expressions

variable {L : Limits} {Γ : StaticScope}

/-- Expressions whose slots are as many as they are. -/
theorem inferEach_sound {es : List (Expr Bare)} {slots : List Ty} {es' : List (Expr Typed)}
    (hsound : ∀ e ∈ es, ∀ {e'}, infer Γ e = .ok e' → (∀ part ∈ e'.parts, L.Allows part) →
      HasType L Γ e')
    (h : inferEach Γ es slots = .ok es') (hlength : es.length = slots.length)
    (hlimits : ∀ part ∈ Expr.allParts es', L.Allows part) : Fits L Γ es' slots := by
  induction es generalizing slots es' with
  | nil =>
      obtain rfl := List.length_eq_zero_iff.mp hlength.symm
      rw [inferEach] at h
      cases h
      exact .nil
  | cons e es ih =>
      cases slots with
      | nil => cases hlength
      | cons slot slots =>
          obtain ⟨e', rest', he, haccepts, hrest, rfl⟩ := inferEach_cons_ok h
          rw [Expr.allParts, List.forall_mem_append] at hlimits
          rw [List.forall_mem_cons] at hsound
          have htail := ih hsound.2 hrest (Nat.succ.inj hlength) hlimits.2
          exact .cons (hsound.1 he hlimits.1) haccepts htail

/-- Expressions in slots of one type. -/
theorem inferEach_sound_replicate {es : List (Expr Bare)} {τ : Ty} {es' : List (Expr Typed)}
    (hsound : ∀ e ∈ es, ∀ {e'}, infer Γ e = .ok e' → (∀ part ∈ e'.parts, L.Allows part) →
      HasType L Γ e')
    (h : inferEach Γ es (List.replicate es.length τ) = .ok es')
    (hlimits : ∀ part ∈ Expr.allParts es', L.Allows part) :
    Fits L Γ es' (List.replicate es'.length τ) := by
  have hfits := inferEach_sound hsound h (List.length_replicate ..).symm hlimits
  have hlength : es'.length = es.length := by rw [hfits.length_eq, List.length_replicate]
  rwa [hlength]

theorem infer_sound (hΓ : Keyed Γ) (e : Expr Bare) {e' : Expr Typed} (h : infer Γ e = .ok e')
    (hlimits : ∀ part ∈ e'.parts, L.Allows part) : HasType L Γ e' := by
  induction e using Expr.induct_inner generalizing e' with
  | step e ih =>
      rw [Expr.parts_eq, List.forall_mem_cons] at hlimits
      obtain ⟨hself, hinner⟩ := hlimits
      cases inferred_of_infer h with
      | literal => exact .literal
      | group _ hinferred =>
          rw [Expr.inner, List.flatMap_singleton] at hinner
          exact .group (ih _ List.mem_cons_self hinferred hinner)
      | binary hleft hright hop =>
          simp only [Expr.inner, List.flatMap_cons, List.flatMap_nil, List.append_nil,
            List.forall_mem_append] at hinner
          have hleft' := ih _ List.mem_cons_self hleft hinner.1
          have hright' := ih _ (List.mem_cons_of_mem _ List.mem_cons_self) hright hinner.2
          refine .binary hleft' hright' hop ?_
          rintro rfl
          exact hself _ _ _ rfl
      | var hx => exact .var (resolveVariable_ok hx)
      | element hx hlist hindex hinteger =>
          rw [Expr.inner, List.flatMap_singleton] at hinner
          have hindex' := ih _ List.mem_cons_self hindex hinner
          exact .element (resolveVariable_ok hx) hlist hindex' hinteger
      | @call _ f _ args _ hf hargs =>
          rw [Expr.inner, ← Expr.allParts_eq] at hinner
          have hfind := resolveCallee_ok hf
          -- The callee was found under the number of the arguments, so every argument has a slot.
          have harity : f.signature.params.length = args.length := hΓ _ _ _ hfind
          have hfits := inferEach_sound (fun d hd => ih d hd) hargs harity.symm hinner
          refine .call ?_ hfits
          rw [hfits.length_eq, harity]
          exact hfind
      | list hfirst hothers =>
          rw [Expr.inner, ← Expr.allParts_eq, Expr.allParts, List.forall_mem_append] at hinner
          have hfirst' := ih _ List.mem_cons_self hfirst hinner.1
          -- The other items go into slots of the type of the first one.
          have hothers' := inferEach_sound_replicate
            (fun d hd => ih d (List.mem_cons_of_mem _ hd)) hothers hinner.2
          exact .list (.cons hfirst' (accepts_self _) hothers')

theorem inferFor_sound (hΓ : Keyed Γ) {target : Ty} {value : Expr Bare} {value' : Expr Typed}
    (h : inferFor Γ target value = .ok value') (hlimits : ∀ part ∈ value'.parts, L.Allows part) :
    Stores L Γ target value' := by
  cases inferred_of_inferFor h with
  | list _ hitems =>
      -- A list literal in a list slot has the type of the slot.
      rw [Expr.parts, List.forall_mem_cons] at hlimits
      have hfits := inferEach_sound_replicate (fun d _ => infer_sound hΓ d) hitems hlimits.2
      exact ⟨.list hfits, accepts_self _⟩
  | other _ hvalue haccepts => exact ⟨infer_sound hΓ value hvalue hlimits, haccepts⟩

theorem inferCondition_sound (hΓ : Keyed Γ) {condition : Expr Bare} {condition' : Expr Typed}
    (h : inferCondition Γ condition = .ok condition')
    (hlimits : ∀ part ∈ condition'.parts, L.Allows part) :
    HasType L Γ condition' ∧ condition'.type = .boolean := by
  obtain ⟨hinferred, hboolean⟩ := inferCondition_ok h
  exact ⟨infer_sound hΓ condition hinferred hlimits, hboolean⟩

theorem inferInitial_sound (hΓ : Keyed Γ) {offset : Nat} {name : String} {declared : Option Ty}
    {value : Option (Expr Bare)} {type : Ty} {value' : Option (Expr Typed)}
    (h : inferInitial Γ offset name declared value = .ok (type, value'))
    (hblank : value' = none → L.blank type)
    (hlimits : ∀ part ∈ Expr.someParts value', L.Allows part) : Initial L Γ type value' := by
  cases inferred_of_inferInitial h with
  | stored hvalue => exact inferFor_sound hΓ hvalue hlimits
  | blank => exact hblank rfl
  | inferred hvalue => exact ⟨infer_sound hΓ _ hvalue hlimits, accepts_self _⟩

end Expressions

/-! ## §2 Statements -/

/-- A declaration that is as the limits demand; other statements always are. -/
def Limits.AllowsStmt (L : Limits) (globals : String → Option Variable) (s : Stmt Typed) : Prop :=
  ∀ o x name typeName value, s = .declare o x name typeName value →
    (value = none → L.blank x.type) ∧ Hides L globals name x

section Statements

variable {L : Limits} {globals : String → Option Variable} {result : Ty}

/-- Statements define no functions. -/
theorem StmtOk.findFunction {Γ Γ' : StaticScope} {s : Stmt Typed}
    (h : StmtOk L globals result Γ s Γ') (name : String) (arity : Nat) :
    Γ'.findFunction name arity = Γ.findFunction name arity := by
  cases h <;> rfl

theorem StmtOk.keyed {Γ Γ' : StaticScope} {s : Stmt Typed} (h : StmtOk L globals result Γ s Γ')
    (hΓ : Keyed Γ) : Keyed Γ' := by
  intro name arity f hf
  rw [h.findFunction] at hf
  exact hΓ name arity f hf

theorem checkAssign_sound {Γ : StaticScope} (hΓ : Keyed Γ) {receiver value : Expr Bare}
    {receiver' value' : Expr Typed} (hreceiver : inferReceiver Γ receiver = .ok receiver')
    (hvalue : inferFor Γ receiver'.type value = .ok value')
    (hlimits : ∀ part ∈ receiver'.parts ++ value'.parts, L.Allows part) :
    StmtOk L globals result Γ (.assign receiver' value') Γ := by
  rw [List.forall_mem_append] at hlimits
  have hstores := inferFor_sound hΓ hvalue hlimits.2
  obtain ⟨hinferred, hmutable⟩ := inferReceiver_ok hreceiver
  have htyped := infer_sound hΓ receiver hinferred hlimits.1
  cases inferred_of_infer hinferred with
  | var hx => exact .assignVar (resolveVariable_ok hx) (hmutable _ _ _ _ rfl) hstores
  | element => exact .assignElement htyped hstores
  | _ => cases hreceiver

/-- **Sound statements.** Whatever the statement is made into is typed, if it keeps within the limits. -/
def Sound (L : Limits) (globals : String → Option Variable) (result : Ty) (s : Stmt Bare) : Prop :=
  ∀ {env env' s'}, Keyed env.scope → checkStmt result env s = .ok (s', env') →
    (∀ part ∈ s'.exprs, L.Allows part) → (∀ part ∈ s'.parts, L.AllowsStmt globals part) →
    StmtOk L globals result env.scope s' env'.scope

theorem checkBlock_of_sound {body : List (Stmt Bare)} {env env' : Env} {body' : List (Stmt Typed)}
    (hsound : ∀ s ∈ body, Sound L globals result s)
    (h : checkBlock result env body = .ok (body', env')) (hkeyed : Keyed env.scope)
    (hexprs : ∀ part ∈ Stmt.blockExprs body', L.Allows part)
    (hparts : ∀ part ∈ Stmt.blockParts body', L.AllowsStmt globals part) :
    BlockOk L globals result env.scope body' := by
  induction body generalizing env body' with
  | nil =>
      rw [checkBlock] at h
      cases h
      exact .nil
  | cons s rest ih =>
      obtain ⟨s', env₁, rest', hs, hrest, rfl⟩ := checkBlock_cons_ok h
      rw [Stmt.blockExprs, List.forall_mem_append] at hexprs
      rw [Stmt.blockParts, List.forall_mem_append] at hparts
      rw [List.forall_mem_cons] at hsound
      have hok := hsound.1 hkeyed hs hexprs.1 hparts.1
      exact .cons hok (ih hsound.2 hrest (hok.keyed hkeyed) hexprs.2 hparts.2)

theorem checkCases_of_sound {cases : List (Case Bare)} {subject : Ty} {env env' : Env}
    {cases' : List (Case Typed)} (hsound : ∀ c ∈ cases, ∀ s ∈ c.body, Sound L globals result s)
    (h : checkCases result subject env cases = .ok (cases', env')) (hkeyed : Keyed env.scope)
    (hexprs : ∀ part ∈ Stmt.casesExprs cases', L.Allows part)
    (hparts : ∀ part ∈ Stmt.casesParts cases', L.AllowsStmt globals part) :
    CasesOk L globals result env.scope cases' ∧ env'.scope = env.scope := by
  induction cases generalizing env cases' with
  | nil =>
      rw [checkCases] at h
      cases h
      exact ⟨.nil, rfl⟩
  | cons c rest ih =>
      obtain ⟨o, value, body⟩ := c
      obtain ⟨value', body', inner, rest', hvalue, hbody, hrest, rfl⟩ := checkCases_cons_ok h
      rw [Stmt.casesExprs, List.forall_mem_append, List.forall_mem_append] at hexprs
      rw [Stmt.casesParts, List.forall_mem_append] at hparts
      rw [List.forall_mem_cons] at hsound
      have hbody' : BlockOk L globals result env.scope.push body' :=
        checkBlock_of_sound hsound.1 hbody hkeyed hexprs.2.1 hparts.1
      have hinner : Keyed (env.leave inner).scope := hkeyed
      obtain ⟨hrest', hscope⟩ := ih hsound.2 hrest hinner hexprs.2.2 hparts.2
      refine ⟨?_, hscope⟩
      cases hvalue with
      | none => exact .default hbody' hrest'
      | some hinferred => exact .case (infer_sound hkeyed _ hinferred hexprs.1) hbody' hrest'

theorem checkStmt_sound (s : Stmt Bare) : Sound L globals result s := by
  induction s using Stmt.induct_inner with
  | step s ih =>
      intro env env' s' hkeyed h hexprs hparts
      cases checked_of_checkStmt h with
      | perform he => exact .perform (infer_sound hkeyed _ he hexprs)
      | declare _ hinitial =>
          obtain ⟨hblank, hhides⟩ := hparts _ List.mem_cons_self _ _ _ _ _ rfl
          exact .declare rfl (inferInitial_sound hkeyed hinitial hblank hexprs) hhides
      | assign hreceiver hvalue => exact checkAssign_sound hkeyed hreceiver hvalue hexprs
      | choose hcondition hyes hno =>
          rw [Stmt.inner, List.forall_mem_append] at ih
          simp only [Stmt.exprs, Stmt.parts, List.forall_mem_append, List.forall_mem_cons]
            at hexprs hparts
          obtain ⟨htyped, hboolean⟩ := inferCondition_sound hkeyed hcondition hexprs.1
          have hyes' := checkBlock_of_sound ih.1 hyes hkeyed hexprs.2.1 hparts.2.1
          have hno' := checkBlock_of_sound ih.2 hno hkeyed hexprs.2.2 hparts.2.2
          exact .choose htyped hboolean hyes' hno'
      | switch hsubject hcases =>
          rw [Stmt.inner, List.forall_mem_flatMap] at ih
          simp only [Stmt.exprs, Stmt.parts, List.forall_mem_append, List.forall_mem_cons]
            at hexprs hparts
          have htyped := infer_sound hkeyed _ hsubject hexprs.1
          obtain ⟨hok, hscope⟩ := checkCases_of_sound ih hcases hkeyed hexprs.2 hparts.2
          rw [hscope]
          exact .switch htyped hok
      | loop hcondition hbody =>
          simp only [Stmt.exprs, Stmt.parts, List.forall_mem_append, List.forall_mem_cons]
            at hexprs hparts
          obtain ⟨htyped, hboolean⟩ := inferCondition_sound hkeyed hcondition hexprs.1
          have hbody' := checkBlock_of_sound ih hbody hkeyed hexprs.2 hparts.2
          exact .loop htyped hboolean hbody'
      | giveBack hvalue haccepts =>
          exact .giveBack ⟨infer_sound hkeyed _ hvalue hexprs, haccepts⟩

theorem checkBlock_sound (body : List (Stmt Bare)) {env env' : Env} {body' : List (Stmt Typed)}
    (h : checkBlock result env body = .ok (body', env')) (hkeyed : Keyed env.scope)
    (hexprs : ∀ part ∈ Stmt.blockExprs body', L.Allows part)
    (hparts : ∀ part ∈ Stmt.blockParts body', L.AllowsStmt globals part) :
    BlockOk L globals result env.scope body' :=
  checkBlock_of_sound (fun s _ => checkStmt_sound s) h hkeyed hexprs hparts

end Statements

end Typing

end DynImp
