import DynImp.Proofs.Typing.Annotated

/-!
# Checking puts the right notes on a tree

What the checker makes of a program is the program with notes on it, and the notes are what
they have to be.  The scope that the checker passes on from statement to statement shows
at every place what is in sight there, and its counter numbers the declarations in the
order in which they stand in the text.
-/

namespace DynImp

namespace Typing

/-! ## §1 Sites and scopes -/

/-- **Description.** Names stand for the same at a site and in a scope of the checker. -/
structure Site.Describes (S : Site) (Γ : StaticScope) : Prop where
  vars : ∀ name, Γ.findVariable name = S.findVariable name
  funs : ∀ name arity, Γ.findFunction name arity = S.findFunction name arity

namespace Site

variable {S : Site} {Γ : StaticScope}

@[simp] theorem findVariable_enter (S : Site) (name : String) :
    S.enter.findVariable name = S.findVariable name := rfl

theorem findVariable_declare (S : Site) (x : Variable) (name : String) :
    (S.declare x).findVariable name = if name = x.name then some x else S.findVariable name := by
  obtain ⟨blocks, functions⟩ := S
  by_cases h : name = x.name
  · simp [declare, findVariable, h]
  · have hne : ¬ x.name = name := fun heq => h heq.symm
    cases blocks with
    | nil => simp [declare, findVariable, h, hne]
    | cons block blocks => simp [declare, findVariable, List.findSome?_cons, h, hne]

theorem findFunction_define (S : Site) (f : Callee) (name : String) (arity : Nat) :
    (S.define f).findFunction name arity =
      if name = f.name ∧ arity = f.arity then some f else S.findFunction name arity := by
  by_cases h : name = f.name ∧ arity = f.arity
  · simp [define, findFunction, h.1, h.2]
  · have hne : ¬ (f.name = name ∧ f.arity = arity) := fun heq => h ⟨heq.1.symm, heq.2.symm⟩
    simp [define, findFunction, h, hne]

/-- What is found has the name and the number of parameters that were looked for. -/
theorem findFunction_key {name : String} {arity : Nat} {f : Callee}
    (h : S.findFunction name arity = some f) : f.name = name ∧ f.arity = arity := by
  simpa using List.find?_some h

@[simp] theorem functions_foldl_declare (S : Site) (xs : List Variable) :
    (xs.foldl declare S).functions = S.functions := by
  induction xs generalizing S with
  | nil => rfl
  | cons x xs ih => exact ih _

theorem functions_foldl_define (S : Site) (fs : List Callee) :
    (fs.foldl define S).functions = fs.reverse ++ S.functions := by
  induction fs generalizing S with
  | nil => rfl
  | cons f fs ih => rw [List.foldl_cons, ih, List.reverse_cons, List.append_assoc]; rfl

namespace Describes

theorem enter (h : S.Describes Γ) : S.enter.Describes Γ.push := ⟨h.vars, h.funs⟩

theorem declare (h : S.Describes Γ) (x : Variable) :
    (S.declare x).Describes (Γ.defineVariable x.name x) where
  vars name := by
    rw [Scope.findVariable_defineVariable, findVariable_declare, h.vars]
  funs := h.funs

theorem define (h : S.Describes Γ) (f : Callee) :
    (S.define f).Describes (Γ.defineFunction f.name f.arity f) where
  vars := h.vars
  funs name arity := by
    rw [Scope.findFunction_defineFunction, findFunction_define, h.funs]

theorem findFunction_key (h : S.Describes Γ) {name : String} {arity : Nat} {f : Callee}
    (hf : Γ.findFunction name arity = some f) : f.name = name ∧ f.arity = arity :=
  Site.findFunction_key ((h.funs name arity).symm.trans hf)

theorem initial : Site.initial.Describes Env.initial.scope := by
  have hroot : Describes ⟨[[]], []⟩ Scope.root := ⟨fun _ => rfl, fun _ _ => rfl⟩
  exact ((hroot.define (Builtin.callee .print)).define (Builtin.callee .log)).define
    (Builtin.callee .converter)

end Describes

end Site

/-! ## §2 Expressions -/

/-- **Noted expressions.** The one is the other with the notes that it has to have. -/
structure Noted (S : Site) (e : Expr Bare) (e' : Expr Typed) : Prop where
  bare : e'.bare = e
  annotated : e'.Annotated S

section Expressions

variable {S : Site} {Γ : StaticScope}

/-- Expressions in a row that are each made into what they have to be. -/
theorem noted_all {es : List (Expr Bare)} {es' : List (Expr Typed)}
    (hnoted : ∀ e ∈ es, ∀ e', infer Γ e = .ok e' → Noted S e e')
    (hinfer : List.Forall₂ (fun e e' => infer Γ e = .ok e') es es') :
    es'.map Expr.bare = es ∧ Expr.AllAnnotated S es' := by
  induction hinfer with
  | nil => exact ⟨rfl, trivial⟩
  | @cons e e' es es' he _ ih =>
      rw [List.forall_mem_cons] at hnoted
      obtain ⟨hbare, hannotated⟩ := ih hnoted.2
      have hhead := hnoted.1 e' he
      exact ⟨by rw [List.map_cons, hhead.bare, hbare], hhead.annotated, hannotated⟩

/-- Items that may all be stored in slots of one type. -/
theorem accepts_of_replicate {count : Nat} {τ : Ty} {es : List (Expr Typed)}
    (h : List.Forall₂ (fun σ e => σ.accepts e.type = true) (List.replicate count τ) es) :
    ∀ e ∈ es, τ.accepts e.type = true := by
  induction count generalizing es with
  | zero =>
      cases h
      exact fun _ h => (List.not_mem_nil h).elim
  | succ count ih =>
      cases h with
      | cons he hes => exact List.forall_mem_cons.mpr ⟨he, ih hes⟩

theorem infer_noted (hS : S.Describes Γ) {e : Expr Bare} {e' : Expr Typed}
    (h : infer Γ e = .ok e') : Noted S e e' := by
  induction e using Expr.induct_inner generalizing e' with
  | step e ih =>
      cases inferred_of_infer h with
      | literal => exact ⟨rfl, rfl⟩
      | group _ hinner =>
          have hnoted := ih _ List.mem_cons_self hinner
          exact ⟨by rw [Expr.bare, hnoted.bare], hnoted.annotated, rfl⟩
      | binary hleft hright hop =>
          have hleft' := ih _ List.mem_cons_self hleft
          have hright' := ih _ (List.mem_cons_of_mem _ List.mem_cons_self) hright
          exact ⟨by rw [Expr.bare, hleft'.bare, hright'.bare], hleft'.annotated, hright'.annotated,
            hop⟩
      | var hx => exact ⟨rfl, (hS.vars _).symm.trans (resolveVariable_ok hx), rfl⟩
      | element hx hlist hindex hinteger =>
          have hnoted := ih _ List.mem_cons_self hindex
          exact ⟨by rw [Expr.bare, hnoted.bare], (hS.vars _).symm.trans (resolveVariable_ok hx),
            hlist, hnoted.annotated, hinteger⟩
      | @call o f name args args' hf hargs =>
          have hfind := (hS.funs _ _).symm.trans (resolveCallee_ok hf)
          -- A function is found under its number of parameters, so each argument has a slot.
          have harity : args.length = f.signature.params.length :=
            (hS.findFunction_key (resolveCallee_ok hf)).2.symm
          obtain ⟨hinfer, hfits⟩ := inferEach_ok hargs harity
          have hinner : ∀ e ∈ args, ∀ e', infer Γ e = .ok e' → Noted S e e' := fun e he _ => ih e he
          obtain ⟨hbare, hannotated⟩ := noted_all hinner hinfer
          refine ⟨by rw [Expr.bare, Expr.allBare_eq, hbare], ?_, hannotated, hfits, rfl⟩
          rw [← hinfer.length_eq]
          exact hfind
      | @list o first first' others others' hfirst hothers =>
          have hfirst' := ih _ List.mem_cons_self hfirst
          obtain ⟨hinfer, hfits⟩ := inferEach_ok hothers (List.length_replicate ..).symm
          obtain ⟨hbare, hannotated⟩ :=
            noted_all (fun e he e' => ih e (List.mem_cons_of_mem _ he)) hinfer
          refine ⟨?_, ⟨hfirst'.annotated, hannotated⟩, first', rfl, rfl, ?_⟩
          · rw [Expr.bare, Expr.allBare_eq, List.map_cons, hfirst'.bare, hbare]
          · exact List.forall_mem_cons.mpr ⟨accepts_self _, accepts_of_replicate hfits⟩

theorem inferFor_noted (hS : S.Describes Γ) {target : Ty} {value : Expr Bare} {value' : Expr Typed}
    (h : inferFor Γ target value = .ok value') : value'.bare = value ∧ value'.Stored S target := by
  cases inferred_of_inferFor h with
  | @list τ o items items' hne hitems =>
      obtain ⟨hinfer, hfits⟩ := inferEach_ok hitems (List.length_replicate ..).symm
      obtain ⟨hbare, hannotated⟩ := noted_all (fun _ _ _ => infer_noted hS) hinfer
      refine ⟨by rw [Expr.bare, Expr.allBare_eq, hbare], rfl, ?_, hannotated,
        accepts_of_replicate hfits⟩
      rintro rfl
      exact hne hbare.symm
  | other hnot hinfer haccepts =>
      have hnoted := infer_noted hS hinfer
      refine ⟨hnoted.bare, ?_⟩
      unfold Expr.Stored
      split
      · next σ o τ items =>
          -- The literal was one before it was noted, and then it is treated as a list.
          exact absurd hnoted.bare.symm (hnot _ _ _ rfl)
      · exact ⟨hnoted.annotated, haccepts⟩

theorem inferInitial_noted (hS : S.Describes Γ) {offset : Nat} {name : String}
    {declared : Option Ty} {value : Option (Expr Bare)} {type : Ty} {value' : Option (Expr Typed)}
    (h : inferInitial Γ offset name declared value = .ok (type, value')) :
    value'.map Expr.bare = value ∧ Expr.Initial S declared type value' := by
  cases inferred_of_inferInitial h with
  | stored hvalue =>
      obtain ⟨hbare, hstored⟩ := inferFor_noted hS hvalue
      exact ⟨congrArg some hbare, rfl, hstored⟩
  | blank => exact ⟨rfl, rfl⟩
  | inferred hvalue =>
      have hnoted := infer_noted hS hvalue
      exact ⟨congrArg some hnoted.bare, rfl, hnoted.annotated⟩

end Expressions

/-! ## §3 Numbers -/

/-- **Numbers in a row**, from the first one to the one before `next`. -/
def Numbered (first next : Nat) (ids : List Nat) : Prop :=
  ids = List.range' first ids.length ∧ next = first + ids.length

namespace Numbered

variable {first mid next : Nat} {ids ids' : List Nat}

theorem nil : Numbered first first [] := ⟨rfl, rfl⟩

theorem singleton : Numbered first (first + 1) [first] := ⟨rfl, rfl⟩

theorem append (h : Numbered first mid ids) (h' : Numbered mid next ids') :
    Numbered first next (ids ++ ids') := by
  obtain ⟨hids, rfl⟩ := h
  obtain ⟨hids', rfl⟩ := h'
  refine ⟨?_, by rw [List.length_append, Nat.add_assoc]⟩
  conv_lhs => rw [hids, hids']
  rw [List.length_append, List.range'_append_1]

theorem nodup (h : Numbered first next ids) : ids.Nodup := by
  rw [h.1]
  exact List.nodup_range'

theorem le (h : Numbered first next ids) {id : Nat} (hid : id ∈ ids) : first ≤ id := by
  rw [h.1] at hid
  exact (List.mem_range'_1.mp hid).1

end Numbered

/-! ## §4 Statements -/

@[simp] theorem numbers_nil : Stmt.numbers [] = [] := rfl

@[simp] theorem numbers_append (block others : List (Stmt Typed)) :
    Stmt.numbers (block ++ others) = Stmt.numbers block ++ Stmt.numbers others := by
  simp [Stmt.numbers]

/-- **Noted statements.** The one is the other with the notes that it has to have, the scope of the
checker shows what is in sight behind it, and its declarations are numbered in order. -/
structure StmtNoted (S : Site) (env : Env) (s : Stmt Bare) (s' : Stmt Typed) (env' : Env) :
    Prop where
  bare : s'.bare = s
  annotated : s'.Annotated S
  site : (s'.siteAfter S).Describes env'.scope
  numbered : Numbered env.fresh env'.fresh (Stmt.numbers s'.parts)

/-- As for statements.  What is in sight at the end of a block does not matter behind it. -/
structure BlockNoted (S : Site) (env : Env) (block : List (Stmt Bare))
    (block' : List (Stmt Typed)) (env' : Env) : Prop where
  bare : block'.map Stmt.bare = block
  annotated : Stmt.BlockAnnotated S block'
  numbered : Numbered env.fresh env'.fresh (Stmt.numbers (Stmt.blockParts block'))

/-- As for statements.  The blocks of cases add nothing to the scope. -/
structure CasesNoted (S : Site) (env : Env) (cases : List (Case Bare))
    (cases' : List (Case Typed)) (env' : Env) : Prop where
  bare : cases'.map Case.bare = cases
  annotated : Stmt.CasesAnnotated S cases'
  scope : env'.scope = env.scope
  numbered : Numbered env.fresh env'.fresh (Stmt.numbers (Stmt.casesParts cases'))

section Statements

variable {result : Ty} {S : Site} {env env' : Env}

theorem checkBlock_noted {block : List (Stmt Bare)} {block' : List (Stmt Typed)}
    (hnoted : ∀ s ∈ block, ∀ {S env s' env'}, S.Describes env.scope →
      checkStmt result env s = .ok (s', env') → StmtNoted S env s s' env')
    (hS : S.Describes env.scope) (h : checkBlock result env block = .ok (block', env')) :
    BlockNoted S env block block' env' := by
  induction block generalizing S env block' with
  | nil =>
      rw [checkBlock] at h
      cases h
      exact ⟨rfl, trivial, .nil⟩
  | cons s block ih =>
      obtain ⟨s', env₁, rest', hs, hrest, rfl⟩ := checkBlock_cons_ok h
      rw [List.forall_mem_cons] at hnoted
      have hhead := hnoted.1 hS hs
      have htail := ih hnoted.2 hhead.site hrest
      refine ⟨by rw [List.map_cons, hhead.bare, htail.bare], ⟨hhead.annotated, htail.annotated⟩, ?_⟩
      rw [Stmt.blockParts, numbers_append]
      exact hhead.numbered.append htail.numbered

theorem checkCases_noted {subject : Ty} {cases : List (Case Bare)} {cases' : List (Case Typed)}
    (hnoted : ∀ c ∈ cases, ∀ s ∈ c.body, ∀ {S env s' env'}, S.Describes env.scope →
      checkStmt result env s = .ok (s', env') → StmtNoted S env s s' env')
    (hS : S.Describes env.scope) (h : checkCases result subject env cases = .ok (cases', env')) :
    CasesNoted S env cases cases' env' := by
  induction cases generalizing env cases' with
  | nil =>
      rw [checkCases] at h
      cases h
      exact ⟨rfl, trivial, rfl, .nil⟩
  | cons c cases ih =>
      obtain ⟨o, value, body⟩ := c
      obtain ⟨value', body', inner, rest', hvalue, hbody, hrest, rfl⟩ := checkCases_cons_ok h
      rw [List.forall_mem_cons] at hnoted
      have hblock := checkBlock_noted hnoted.1 hS.enter hbody
      -- Behind the block the scope is the one before it; only the counter has moved on.
      have hS' : S.Describes (env.leave inner).scope := hS
      have htail := ih hnoted.2 hS' hrest
      have hvalue' : value'.map Expr.bare = value ∧ ∀ e ∈ value', e.Annotated S := by
        cases hvalue with
        | none => simp
        | some hinfer =>
            have hnoted := infer_noted hS hinfer
            simp [hnoted.bare, hnoted.annotated]
      refine ⟨?_, ⟨hvalue'.2, hblock.annotated, htail.annotated⟩, htail.scope, ?_⟩
      · rw [List.map_cons, Case.bare, Stmt.blockBare_eq, hvalue'.1, hblock.bare, htail.bare]
        rfl
      · rw [Stmt.casesParts, numbers_append]
        exact hblock.numbered.append htail.numbered

theorem checkStmt_noted {s : Stmt Bare} {s' : Stmt Typed} (hS : S.Describes env.scope)
    (h : checkStmt result env s = .ok (s', env')) : StmtNoted S env s s' env' := by
  induction s using Stmt.induct_inner generalizing S env s' env' with
  | step s ih =>
      have hinner : ∀ t ∈ s.inner, ∀ {S env t' env'}, S.Describes env.scope →
          checkStmt result env t = .ok (t', env') → StmtNoted S env t t' env' :=
        fun t ht _ _ _ _ => ih t ht
      cases checked_of_checkStmt h with
      | perform he =>
          have hnoted := infer_noted hS he
          exact ⟨by rw [Stmt.bare, hnoted.bare], hnoted.annotated, hS, .nil⟩
      | @declare o name typeName declared value type value' hdeclared hinitial =>
          obtain ⟨hbare, hvalue⟩ := inferInitial_noted hS hinitial
          refine ⟨by rw [Stmt.bare, hbare], ⟨rfl, rfl, declared, resolveType_ok hdeclared, hvalue⟩,
            hS.declare _, .singleton⟩
      | assign hreceiver hvalue =>
          have hreceiver' := infer_noted hS (inferReceiver_ok hreceiver).1
          obtain ⟨hbare, hstored⟩ := inferFor_noted hS hvalue
          exact ⟨by rw [Stmt.bare, hreceiver'.bare, hbare], ⟨hreceiver'.annotated, hstored⟩, hS,
            .nil⟩
      | choose hcondition hyes hno =>
          have hcondition' := infer_noted hS (inferCondition_ok hcondition).1
          rw [Stmt.inner, List.forall_mem_append] at hinner
          have hyes' := checkBlock_noted hinner.1 hS.enter hyes
          have hno' := checkBlock_noted hinner.2 hS.enter hno
          refine ⟨?_, ⟨hcondition'.annotated, hyes'.annotated, hno'.annotated⟩, hS, ?_⟩
          · rw [Stmt.bare, Stmt.blockBare_eq, Stmt.blockBare_eq, hcondition'.bare, hyes'.bare,
              hno'.bare]
          · have hnumbered := hyes'.numbered.append hno'.numbered
            rwa [← numbers_append] at hnumbered
      | @switch subject subject' cases cases' env' hsubject hcases =>
          have hsubject' := infer_noted hS hsubject
          have hcases' := checkCases_noted
            (fun c hc t ht => hinner t (List.mem_flatMap.mpr ⟨c, hc, ht⟩)) hS hcases
          refine ⟨?_, ⟨hsubject'.annotated, hcases'.annotated⟩, ?_, hcases'.numbered⟩
          · rw [Stmt.bare, Case.allBare_eq, hsubject'.bare, hcases'.bare]
          · rw [hcases'.scope]
            exact hS
      | @loop condition condition' body body' inner hcondition hbody =>
          have hcondition' := infer_noted hS (inferCondition_ok hcondition).1
          have hbody' : BlockNoted S.enter env.enter body body' inner :=
            checkBlock_noted hinner hS.enter hbody
          refine ⟨?_, ⟨hcondition'.annotated, hbody'.annotated⟩, hS, hbody'.numbered⟩
          rw [Stmt.bare, Stmt.blockBare_eq, hcondition'.bare, hbody'.bare]
      | giveBack hvalue _ =>
          have hnoted := infer_noted hS hvalue
          exact ⟨by rw [Stmt.bare, hnoted.bare], hnoted.annotated, hS, .nil⟩

end Statements

/-! ## §5 Items -/

/-- **Noted items** of one kind: `bare` takes the notes off, `annotated` is what the notes have to
be, `after` the site behind an item, and `ids` the numbers of its declarations. -/
structure ItemNoted {α β : Type} (bare : β → α) (annotated : Site → β → Prop)
    (after : Site → β → Site) (ids : β → List Nat) (S : Site) (env : Env) (a : α) (b : β)
    (env' : Env) : Prop where
  bare : bare b = a
  annotated : annotated S b
  site : (after S b).Describes env'.scope
  numbered : Numbered env.fresh env'.fresh (ids b)

/-- Items in a row that are each made into what they have to be: each one is at the site that those
before it leave. -/
theorem checkEach_noted {α β : Type} {bare : β → α} {annotated : Site → β → Prop}
    {after : Site → β → Site} {ids : β → List Nat} {check : Env → α → Except TypeError (β × Env)}
    (hnoted : ∀ {S env a b env'}, S.Describes env.scope → check env a = .ok (b, env') →
      ItemNoted bare annotated after ids S env a b env')
    {S : Site} {env env' : Env} {items : List α} {items' : List β}
    (hS : S.Describes env.scope) (h : checkEach check env items = .ok (items', env')) :
    ItemNoted (List.map bare)
      (fun S bs => ∀ before b rest, bs = before ++ b :: rest → annotated (before.foldl after S) b)
      (fun S bs => bs.foldl after S) (List.flatMap ids) S env items items' env' := by
  induction items generalizing S env items' with
  | nil =>
      rw [checkEach] at h
      cases h
      exact ⟨rfl, fun _ _ _ h => by simp at h, hS, .nil⟩
  | cons a items ih =>
      obtain ⟨b, env₁, items₁, ha, hitems, rfl⟩ := checkEach_cons_ok h
      have hhead := hnoted hS ha
      have htail := ih hhead.site hitems
      refine ⟨by rw [List.map_cons, hhead.bare, htail.bare], ?_, htail.site,
        hhead.numbered.append htail.numbered⟩
      intro before b' rest hsplit
      cases before with
      | nil =>
          cases hsplit
          exact hhead.annotated
      | cons b₁ before =>
          obtain ⟨rfl, hrest⟩ := List.cons.inj hsplit
          exact htail.annotated before b' rest hrest

theorem checkGlobal_noted {S : Site} {env env' : Env} {g : Global Bare} {g' : Global Typed}
    (hS : S.Describes env.scope) (h : checkGlobal env g = .ok (g', env')) :
    ItemNoted Global.bare (fun S g => g.Annotated S) (fun S g => S.declare g.binding)
      (fun g => [g.binding.id]) S env g g' env' := by
  obtain ⟨written, type, value', hwritten, hinitial, rfl, rfl⟩ := checkGlobal_ok h
  obtain ⟨hbare, hvalue⟩ := inferInitial_noted hS hinitial
  exact ⟨by rw [Global.bare, hbare], ⟨rfl, rfl, written, resolveType_ok hwritten, hvalue⟩,
    hS.declare _, .singleton⟩

/-- The parameters of a function are declared one after the other. -/
theorem declareParams_noted {S : Site} {env : Env} (params : List Parameter) (types : List Ty)
    (hS : S.Describes env.scope) :
    let xs := Parameter.variables env.fresh params types
    (xs.foldl Site.declare S).Describes (declareParams env params types).scope ∧
      Numbered env.fresh (declareParams env params types).fresh (xs.map (·.id)) := by
  induction params generalizing S env types with
  | nil => exact ⟨hS, .nil⟩
  | cons p params ih =>
      cases types with
      | nil => exact ⟨hS, .nil⟩
      | cons τ types =>
          have hdeclared : (S.declare ⟨env.fresh, p.name, true, τ⟩).Describes
              (env.declare p.name true τ).2.scope := hS.declare _
          obtain ⟨hscope, hnumbered⟩ := ih types hdeclared
          exact ⟨hscope, Numbered.singleton.append hnumbered⟩

theorem checkFunction_noted {S : Site} {env env' : Env} {f : Function Bare} {f' : Function Typed}
    (hS : S.Describes env.scope) (h : checkFunction env f = .ok (f', env')) :
    ItemNoted Function.bare (fun S f => f.Annotated (S.define f.callee))
      (fun S f => S.define f.callee) Function.numbers S env f f' env' := by
  obtain ⟨types, written, body', inner, htypes, hwritten, hbody, rfl, rfl⟩ := checkFunction_ok h
  have hparams := resolveParams_ok htypes
  have hdefined : (S.define (env.define f.name ⟨types, written.getD .nil⟩).1).Describes
      (env.define f.name ⟨types, written.getD .nil⟩).2.scope := hS.define _
  have hentered : (S.define (env.define f.name ⟨types, written.getD .nil⟩).1).enter.Describes
      (env.define f.name ⟨types, written.getD .nil⟩).2.enter.scope := hdefined.enter
  obtain ⟨hscope, hnumbered⟩ := declareParams_noted f.params types hentered
  have hblock := checkBlock_noted (fun _ _ _ _ _ _ => checkStmt_noted) hscope hbody
  have hresult := resolveType_ok hwritten
  refine ⟨?_, ⟨rfl, hparams, ⟨written, hresult, rfl⟩, hblock.annotated⟩, hdefined, ?_⟩
  · rw [Function.bare]
    exact congrArg (Function.mk f.offset () f.name f.params f.returnTypeName) hblock.bare
  · exact Numbered.singleton.append (hnumbered.append hblock.numbered)

/-! ## §6 Programs -/

/-- **Notes on programs.** What the checker makes of a program is the program with the notes that
it has to have, and its declarations are numbered in order behind the built-in functions. -/
theorem check_noted {p : Program Bare} {q : Program Typed} (h : p.check = .ok q) :
    q.bare = p ∧ q.Annotated ∧ ∃ next, Numbered Builtin.all.length next q.numbers := by
  obtain ⟨env, env', main, hglobals, hfunctions, -, -⟩ := check_ok h
  have hglobals := checkEach_noted checkGlobal_noted Site.Describes.initial hglobals
  have hfunctions := checkEach_noted checkFunction_noted hglobals.site hfunctions
  refine ⟨?_, ⟨?_, ?_⟩, env'.fresh, ?_⟩
  · rw [Program.bare, hglobals.bare, hfunctions.bare]
  -- The sites of the notes fold the bindings, those of the checker the checked items.
  · intro before g after hsplit
    rw [Program.siteOfGlobals, List.foldl_map]
    exact hglobals.annotated before g after hsplit
  · intro before f after hsplit
    have hsite := hfunctions.annotated before f after hsplit
    rw [Program.siteOfFunctions, Program.siteOfGlobals, List.foldl_map, List.foldl_map,
      List.foldl_append]
    exact hsite
  · have hnumbered := hglobals.numbered.append hfunctions.numbered
    rw [← List.map_eq_flatMap] at hnumbered
    exact hnumbered

/-- No two declarations of a checked program have the same number, and none has that of a built-in
function. -/
theorem numbers_nodup {p : Program Bare} {q : Program Typed} (h : p.check = .ok q) :
    ((Builtin.all.map fun b => (Builtin.callee b).id) ++ q.numbers).Nodup := by
  obtain ⟨-, -, next, hnumbered⟩ := check_noted h
  have hbuiltins : Numbered 0 Builtin.all.length
      (Builtin.all.map fun b => (Builtin.callee b).id) := ⟨by decide, by decide⟩
  exact (hbuiltins.append hnumbered).nodup

end Typing

end DynImp
