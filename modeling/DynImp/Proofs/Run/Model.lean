import DynImp.Proofs.Run.Contract
import DynImp.Proofs.Run.Linking
import DynImp.Proofs.Run.Returns
import Mathlib.Data.List.Forall2

/-!
# Runs of typed programs

A model gives types a meaning at run time: the values of a type, the cells of a type, and
for each access to the world what it does to them.  From that every run of a typed program
is known, step by step.

Scopes of the checker and of a run differ.  The checker looks up names where a function is
written, a run where it is called.  `Backed` says how they match: every variable that the
checker sees has a cell of its type, and so has every global, whatever local variables may
hide it.
-/

namespace DynImp

namespace Eval

open Typing

/-! ## §1 Models -/

/-- **Model.** A contract with the values and cells of every type, and the proof that every access
to the world keeps it. -/
structure Model (κ : Type) [Preorder κ] (L : Limits) extends Contract κ Typed where
  /-- The values of a type. -/
  value : κ → Ty → Value → Prop
  /-- The places of cells for values of a type. -/
  cell : κ → Ty → Nat → Prop
  value_mono : ∀ {k k' τ v}, k ≤ k' → value k τ v → value k' τ v
  cell_mono : ∀ {k k' τ c}, k ≤ k' → cell k τ c → cell k' τ c
  scalar : ∀ {k} s, value k (.ofScalar s) (.scalar s)
  accepts : ∀ {k τ σ v}, τ.accepts σ = true → value k σ v → value k τ v
  blank : ∀ {k τ}, L.blank τ → value k τ .nil
  same : ∀ {k τ σ v}, L.same τ σ → value k τ v → value k σ v
  same_cell : ∀ {k τ σ c}, L.same τ σ → cell k τ c → cell k σ c
  asBoolean : ∀ {k w v}, world k w → value k .boolean v →
    toContract.Keeps k (asBoolean v) Trail.quiet w fun _ _ _ => True
  asInteger : ∀ {k w v}, world k w → value k .integer v →
    toContract.Keeps k (asInteger v) Trail.quiet w fun _ _ _ => True
  asList : ∀ {k w τ v}, world k w → value k (.list τ) v →
    toContract.Keeps k (asList v) Trail.quiet w fun k' id _ => value k' (.list τ) (.list id)
  readCell : ∀ {k w τ c}, world k w → cell k τ c →
    toContract.Keeps k (World.readCell c) Trail.quiet w fun k' v _ => value k' τ v
  elementAt : ∀ {k w τ id} index, world k w → value k (.list τ) (.list id) →
    toContract.Keeps k (elementAt id index) Trail.quiet w fun k' v _ => value k' τ v
  newList : ∀ {k w τ items}, world k w → (∀ v ∈ items, value k τ v) →
    toContract.Keeps k (World.newList items) Trail.quiet w fun k' v _ => value k' (.list τ) v
  newCell : ∀ {k w τ v}, world k w → value k τ v →
    ∃ k', k ≤ k' ∧ world k' (World.newCell v w).2 ∧ cell k' τ w.cells.size
  writeCell : ∀ {k w τ c v}, world k w → cell k τ c → value k τ v →
    toContract.Keeps k (World.writeCell c v) Trail.quiet w fun _ _ _ => True
  storeAt : ∀ {k w τ id v} index, world k w → value k (.list τ) (.list id) → value k τ v →
    toContract.Keeps k (storeAt id index v) Trail.quiet w fun _ _ _ => True
  apply : ∀ {k w op left right τ a b}, world k w → op ≠ .and → op ≠ .or →
    operatorType? op left.type right.type = some τ → (op = .power → L.power left right) →
    value k left.type a → value k right.type b →
    (∀ o σ s, right = .literal o σ s → b = .scalar s) → assumed (.applied op a b w) →
    toContract.Keeps k (apply op a b) Trail.quiet w fun k' v _ => value k' τ v
  callBuiltin : ∀ {k w args} b, world k w → List.Forall₂ (value k) b.signature.params args →
    toContract.Keeps k (callBuiltin b args) Trail.quiet w
      fun k' v _ => value k' b.signature.result v
  evaluated : ∀ {k k' scope before} {e : Expr Typed} {result : Outcome Fault Value × World},
    k ≤ k' → world k before → world k' result.2 →
    (∀ v, result.1 = .done v → value k' e.type v) → event k' (.evaluated scope e before result)
  executed : ∀ {k k' s before} {result : Outcome Fault Flow × Machine Typed}, k ≤ k' →
    world k before.world → world k' result.2.world → event k' (.executed s before result)
  applied : ∀ {k op a b w}, world k w → event k (.applied op a b w)
  bound : ∀ {k w c} {x : Variable}, world k w → cell k x.type c.location → event k (.bound x c w)
  called : ∀ {k w f args} {callee : Callee}, world k w →
    List.Forall₂ (value k) callee.signature.params args → event k (.called callee f args w)
  passed : ∀ {k w index τ c} {callee : Callee}, world k w →
    callee.signature.params[index]? = some τ → cell k τ c.location →
    event k (.passed callee index c w)

namespace Model

variable {κ : Type} [Preorder κ] {L : Limits} (M : Model κ L) (G : Ground)

/-! ## §2 Scopes -/

/-- A name has a cell for the variable that the checker takes it for. -/
def Binds (k : κ) (scope : RuntimeScope Typed) (name : String) (x : Variable) : Prop :=
  ∃ c : Cell, scope.findVariable name = some c ∧ (x.mutable = true → c.mutable = true) ∧
    M.cell k x.type c.location

/-- **Backed scopes.** What the checker sees in `Γ` is there in the scope of the run. -/
structure Backed (k : κ) (Γ : StaticScope) (scope : RuntimeScope Typed) : Prop where
  visible : ∀ name x, Γ.findVariable name = some x → M.Binds k scope name x
  globals : ∀ name x, G.globals name = some x → M.Binds k scope name x
  functions : ∀ name arity, scope.findFunction name arity = G.functions name arity
  links : G.Links L Γ

variable {M G} {k k' : κ} {Γ : StaticScope} {scope : RuntimeScope Typed}

theorem Binds.mono {name : String} {x : Variable} (h : M.Binds k scope name x) (hk : k ≤ k') :
    M.Binds k' scope name x := by
  obtain ⟨c, hfind, hmutable, hc⟩ := h
  exact ⟨c, hfind, hmutable, M.cell_mono hk hc⟩

namespace Backed

theorem mono (h : M.Backed G k Γ scope) (hk : k ≤ k') : M.Backed G k' Γ scope where
  visible name x hx := (h.visible name x hx).mono hk
  globals name x hx := (h.globals name x hx).mono hk
  functions := h.functions
  links := h.links

theorem push (h : M.Backed G k Γ scope) : M.Backed G k Γ.push scope.push :=
  ⟨h.visible, h.globals, h.functions, h.links⟩

/-- A called function sees the globals through the scope of its caller. -/
theorem enter (h : M.Backed G k Γ scope) {Γ₀ : StaticScope}
    (houter : ∀ name, Γ₀.findVariable name = G.globals name) (hlinks : G.Links L Γ₀) :
    M.Backed G k Γ₀.push scope.push where
  visible name x hx := h.globals name x (by rw [← houter]; exact hx)
  globals := h.globals
  functions := h.functions
  links := hlinks

theorem declare (h : M.Backed G k Γ scope) {name : String} {x : Variable} {c : Cell}
    (hmutable : x.mutable = true → c.mutable = true) (hc : M.cell k x.type c.location)
    (hhides : ∀ g, G.globals name = some g → c.mutable = true ∧ L.same x.type g.type) :
    M.Backed G k (Γ.defineVariable name x) (scope.defineVariable name c) where
  visible other y hy := by
    rw [Scope.findVariable_defineVariable] at hy
    split at hy
    · next heq =>
        cases hy
        refine ⟨c, ?_, hmutable, hc⟩
        rw [Scope.findVariable_defineVariable, if_pos heq]
    · next hne =>
        obtain ⟨c', hfind, hmutable', hc'⟩ := h.visible other y hy
        refine ⟨c', ?_, hmutable', hc'⟩
        rw [Scope.findVariable_defineVariable, if_neg hne]
        exact hfind
  globals other g hg := by
    by_cases heq : other = name
    · -- The variable hides a global, so its cell has to do for both.
      subst heq
      obtain ⟨hcell, hsame⟩ := hhides g hg
      refine ⟨c, ?_, fun _ => hcell, M.same_cell hsame hc⟩
      rw [Scope.findVariable_defineVariable, if_pos rfl]
    · obtain ⟨c', hfind, hmutable', hc'⟩ := h.globals other g hg
      refine ⟨c', ?_, hmutable', hc'⟩
      rw [Scope.findVariable_defineVariable, if_neg heq]
      exact hfind
  functions := h.functions
  links := h.links

end Backed

/-! ## §3 Accesses -/

variable {w : World}

/-- The cell of a variable that the checker found. -/
theorem lookupCell_keeps {name : String} {x : Variable} (hw : M.world k w)
    (hx : M.Binds k scope name x) :
    M.Keeps k (lookupCell scope name) Trail.quiet w
      fun k' c _ => (x.mutable = true → c.mutable = true) ∧ M.cell k' x.type c.location := by
  obtain ⟨c, hfind, hmutable, hc⟩ := hx
  have hok : scope.lookupVariable name = .ok c := Scope.lookupVariable_ok.mpr hfind
  rw [lookupCell, hok]
  exact .pure hw ⟨hmutable, hc⟩

theorem literal_done {n : Nat} {e : Expr Typed} {a : Value} {w' : World}
    (h : eval .dynamic n scope e w = (.done a, w')) {o : Nat} {τ : Ty} {s : Scalar}
    (he : e = .literal o τ s) : a = .scalar s := by
  subst he
  cases n with
  | zero => cases h
  | succ n =>
      rw [eval] at h
      cases h
      rfl

theorem logical_type {op : BinaryOp} {left right τ : Ty} (hop : op = .and ∨ op = .or)
    (h : operatorType? op left right = some τ) :
    left = .boolean ∧ right = .boolean ∧ .boolean = τ := by
  rcases hop with rfl | rfl <;> simp only [operatorType?] at h
  all_goals
    split at h
    · next heq =>
        cases h
        exact ⟨heq.1, heq.2, rfl⟩
    · cases h

theorem values_agree {σs τs : List Ty} {vs : List Value}
    (hsame : ∀ entry ∈ σs.zip τs, L.same entry.1 entry.2) (hlength : τs.length = σs.length)
    (h : List.Forall₂ (M.value k) σs vs) : List.Forall₂ (M.value k) τs vs := by
  induction h generalizing τs with
  | nil =>
      obtain rfl := List.length_eq_zero_iff.mp hlength
      exact .nil
  | cons hv _ ih =>
      cases τs with
      | nil => cases hlength
      | cons τ τs =>
          rw [List.zip_cons_cons, List.forall_mem_cons] at hsame
          exact .cons (M.same hsame.1 hv) (ih hsame.2 (Nat.succ.inj hlength))

theorem values_replicate {count : Nat} {τ : Ty} {vs : List Value}
    (h : List.Forall₂ (M.value k) (List.replicate count τ) vs) : ∀ v ∈ vs, M.value k τ v := by
  induction count generalizing vs with
  | zero =>
      cases h
      exact fun v hv => (List.not_mem_nil hv).elim
  | succ count ih =>
      cases h with
      | cons hv hvs => exact List.forall_mem_cons.mpr ⟨hv, ih hvs⟩

/-! ## §4 Steps -/

variable (M) in
/-- What is known when a statement is left: the value that it returns has the type of the result,
and the scope is backed. -/
def Flows (G : Ground) (result : Ty) (Γ : StaticScope) (k : κ) (flow : Flow) (m : Machine Typed) :
    Prop :=
  (∀ v, flow = .returned v → M.value k result v) ∧ M.Backed G k Γ m.scope

variable (M G) in
/-- **The evaluator keeps the model** down to a bound on the depth, in all its parts. -/
structure Kept (n : Nat) : Prop where
  eval : ∀ {k w Γ scope e}, M.world k w → M.Backed G k Γ scope → HasType L Γ e →
    M.Keeps k (eval .dynamic n scope e) (evalTrail .dynamic n scope e) w
      fun k' v _ => M.value k' e.type v
  condition : ∀ {k w Γ scope e}, M.world k w → M.Backed G k Γ scope → HasType L Γ e →
    e.type = .boolean →
    M.Keeps k (evalCondition .dynamic n scope e) (conditionTrail .dynamic n scope e) w
      fun _ _ _ => True
  all : ∀ {k w Γ scope es slots}, M.world k w → M.Backed G k Γ scope → Fits L Γ es slots →
    M.Keeps k (evalAll .dynamic n scope es) (allTrail .dynamic n scope es) w
      fun k' vs _ => List.Forall₂ (M.value k') slots vs
  invoke : ∀ {k w Γ scope name arity c args}, M.world k w → M.Backed G k Γ scope →
    G.functions name arity = some c → List.Forall₂ (M.value k) c.signature.params args →
    M.Keeps k (invoke .dynamic n scope c args) (invokeTrail .dynamic n scope c args) w
      fun k' v _ => M.value k' c.signature.result v
  exec : ∀ {k m Γ Γ' result s}, M.world k m.world → M.Backed G k Γ m.scope →
    StmtOk L G.globals result Γ s Γ' →
    M.Keeps k (exec .dynamic n s) (execTrail .dynamic n s) m (M.Flows G result Γ')
  block : ∀ {k m Γ result body}, M.world k m.world → M.Backed G k Γ m.scope →
    BlockOk L G.globals result Γ body →
    M.Keeps k (execAll .dynamic n body) (blockTrail .dynamic n body) m
      fun k' flow _ => ∀ v, flow = .returned v → M.value k' result v
  loop : ∀ {k m Γ result condition body}, M.world k m.world → M.Backed G k Γ m.scope →
    HasType L Γ condition → condition.type = .boolean → BlockOk L G.globals result Γ.push body →
    M.Keeps k (execLoop .dynamic n condition body) (loopTrail .dynamic n condition body) m
      (M.Flows G result Γ)
  initial : ∀ {k w Γ scope τ value}, M.world k w → M.Backed G k Γ scope → Initial L Γ τ value →
    M.Keeps k (evalInitial .dynamic n scope value) (initialTrail .dynamic n scope value) w
      fun k' v _ => M.value k' τ v
  select : ∀ {k w Γ scope result v cases}, M.world k w → M.Backed G k Γ scope →
    CasesOk L G.globals result Γ cases →
    M.Keeps k (select .dynamic n scope v cases) (selectTrail .dynamic n scope v cases) w
      fun _ body _ => ∀ b, body = some b → BlockOk L G.globals result Γ.push b
  assign : ∀ {k w Γ scope result receiver value}, M.world k w → M.Backed G k Γ scope →
    StmtOk L G.globals result Γ (.assign receiver value) Γ →
    M.Keeps k (assign .dynamic n scope receiver value) (assignTrail .dynamic n scope receiver value)
      w fun _ _ _ => True

section Steps

variable {n : Nat} (ih : M.Kept G n)

include ih

theorem binary_step {τ : Ty} {op : BinaryOp} {left right : Expr Typed} (hand : op ≠ .and)
    (hor : op ≠ .or) (hw : M.world k w) (hs : M.Backed G k Γ scope) (hleft : HasType L Γ left)
    (hright : HasType L Γ right) (hop : operatorType? op left.type right.type = some τ)
    (hpower : op = .power → L.power left right) :
    M.Keeps k (do
        let a ← Eval.eval .dynamic n scope left
        let b ← Eval.eval .dynamic n scope right
        Eval.apply op a b)
      (Trail.andThen (Eval.eval .dynamic n scope left) (evalTrail .dynamic n scope left) fun a =>
        Trail.andThen (Eval.eval .dynamic n scope right) (evalTrail .dynamic n scope right) fun b =>
          Trail.opening (.applied op a b) Trail.quiet) w fun k' v _ => M.value k' τ v := by
  refine .bind (ih.eval hw hs hleft) ?_
  intro k₁ a w₁ hk₁ _ hw₁ ha
  refine .bind (ih.eval hw₁ (hs.mono hk₁) hright) ?_
  intro k₂ b w₂ hk₂ hdone hw₂ hb
  refine .opening (M.applied hw₂) fun hassumed => ?_
  exact M.apply hw₂ hand hor hop hpower (M.value_mono hk₂ ha) hb
    (fun _ _ _ hliteral => literal_done hdone hliteral) hassumed

theorem eval_step (hG : G.Ok L) {e : Expr Typed} (hw : M.world k w) (hs : M.Backed G k Γ scope)
    (he : HasType L Γ e) :
    M.Keeps k (Eval.eval .dynamic (n + 1) scope e) (evalTrail .dynamic (n + 1) scope e) w
      fun k' v _ => M.value k' e.type v := by
  unfold evalTrail
  refine .closing ?_ fun k' hk hw' hv => M.evaluated hk hw hw' hv
  cases he with
  | @literal _ s =>
      rw [Eval.eval]
      exact .pure hw (M.scalar s)
  | group hinner =>
      rw [Eval.eval]
      exact ih.eval hw hs hinner
  | @binary τ op left right hleft hright hop hpower =>
      cases op with
      | and =>
          obtain ⟨hl, hr, rfl⟩ := logical_type (Or.inl rfl) hop
          -- The right operand is evaluated only if the left one does not decide.
          simp only [Eval.eval]
          refine .bind (ih.condition hw hs hleft hl) ?_
          intro k₁ b w₁ hk₁ _ hw₁ _
          cases b with
          | true =>
              have hcondition := ih.condition hw₁ (hs.mono hk₁) hright hr
              exact .map hcondition fun _ b _ _ _ => M.scalar (.boolean b)
          | false => exact .pure hw₁ (M.scalar (.boolean false))
      | or =>
          obtain ⟨hl, hr, rfl⟩ := logical_type (Or.inr rfl) hop
          simp only [Eval.eval]
          refine .bind (ih.condition hw hs hleft hl) ?_
          intro k₁ b w₁ hk₁ _ hw₁ _
          cases b with
          | true => exact .pure hw₁ (M.scalar (.boolean true))
          | false =>
              have hcondition := ih.condition hw₁ (hs.mono hk₁) hright hr
              exact .map hcondition fun _ b _ _ _ => M.scalar (.boolean b)
      | less | greater | equal | notEqual | add | subtract | multiply | divide | power =>
          simp only [Eval.eval]
          exact binary_step ih (by decide) (by decide) hw hs hleft hright hop hpower
  | var hx =>
      rw [Eval.eval]
      refine .bind_quiet (lookupCell_keeps hw (hs.visible _ _ hx)) ?_
      rintro k₁ c w₁ - - hw₁ ⟨-, hc⟩
      exact M.readCell hw₁ hc
  | element hx hlist hindex hinteger =>
      rw [Eval.eval]
      refine .bind (lookupCell_keeps hw (hs.visible _ _ hx)) ?_
      rintro k₁ c w₁ hk₁ - hw₁ ⟨-, hc⟩
      rw [hlist] at hc
      refine .bind (M.readCell hw₁ hc) ?_
      intro k₂ v w₂ hk₂ _ hw₂ hv
      refine .bind (M.asList hw₂ hv) ?_
      intro k₃ id w₃ hk₃ _ hw₃ hid
      have hs₃ := ((hs.mono hk₁).mono hk₂).mono hk₃
      -- The index may run any code, but the list was found before and keeps its type.
      refine .bind_quiet (ih.eval hw₃ hs₃ hindex) ?_
      intro k₄ i w₄ hk₄ _ hw₄ hi
      rw [hinteger] at hi
      refine .bind_quiet (M.asInteger hw₄ hi) ?_
      intro k₅ i w₅ hk₅ _ hw₅ _
      exact M.elementAt i hw₅ (M.value_mono (hk₄.trans hk₅) hid)
  | @call _ f name args hf hargs =>
      rw [Eval.eval]
      obtain ⟨c, hc, hagree⟩ := hs.links _ _ _ hf
      have hlookup : Discipline.dynamic.resolve scope f name args.length = .ok c := by
        refine Scope.lookupFunction_ok.mpr ?_
        rw [hs.functions, hc]
      refine .bind_ok (mapError_eq_ok.mpr hlookup) ?_
      refine .bind (ih.all hw hs hargs) ?_
      intro k₁ vs w₁ hk₁ _ hw₁ hvs
      refine .opening (M.called hw₁ hvs) fun _ => ?_
      -- The function that is called takes what the one that was checked takes.
      have hlength : c.signature.params.length = f.signature.params.length :=
        (hG.arity hc).trans hargs.length_eq
      have hargs' := values_agree hagree.1 hlength hvs
      refine .imp (ih.invoke hw₁ (hs.mono hk₁) hc hargs') ?_
      intro k₂ v w₂ _ hv
      exact M.same hagree.2 hv
  | @list _ τ items hitems =>
      rw [Eval.eval]
      refine .bind_quiet (ih.all hw hs hitems) ?_
      intro k₁ vs w₁ _ _ hw₁ hvs
      exact M.newList hw₁ (values_replicate hvs)

theorem condition_step {e : Expr Typed} (hw : M.world k w) (hs : M.Backed G k Γ scope)
    (he : HasType L Γ e) (hboolean : e.type = .boolean) :
    M.Keeps k (evalCondition .dynamic (n + 1) scope e) (conditionTrail .dynamic (n + 1) scope e) w
      fun _ _ _ => True := by
  rw [evalCondition, conditionTrail]
  refine .bind_quiet (ih.eval hw hs he) ?_
  intro k₁ v w₁ _ _ hw₁ hv
  rw [hboolean] at hv
  exact M.asBoolean hw₁ hv

theorem all_step {es : List (Expr Typed)} {slots : List Ty} (hw : M.world k w)
    (hs : M.Backed G k Γ scope) (hes : Fits L Γ es slots) :
    M.Keeps k (evalAll .dynamic (n + 1) scope es) (allTrail .dynamic (n + 1) scope es) w
      fun k' vs _ => List.Forall₂ (M.value k') slots vs := by
  cases hes with
  | nil =>
      rw [evalAll, allTrail]
      exact .pure hw .nil
  | cons he haccepts hrest =>
      rw [evalAll, allTrail]
      refine .bind (ih.eval hw hs he) ?_
      intro k₁ v w₁ hk₁ _ hw₁ hv
      refine .map (ih.all hw₁ (hs.mono hk₁) hrest) ?_
      intro k₂ vs w₂ hk₂ hvs
      exact .cons (M.value_mono hk₂ (M.accepts haccepts hv)) hvs

theorem stored_keeps {τ : Ty} {e : Expr Typed} (hw : M.world k w) (hs : M.Backed G k Γ scope)
    (he : Stores L Γ τ e) :
    M.Keeps k (Eval.eval .dynamic n scope e) (evalTrail .dynamic n scope e) w
      fun k' v _ => M.value k' τ v :=
  .imp (ih.eval hw hs he.typed) fun _ _ _ _ hv => M.accepts he.accepts hv

theorem initial_step {τ : Ty} {value : Option (Expr Typed)} (hw : M.world k w)
    (hs : M.Backed G k Γ scope) (hvalue : Initial L Γ τ value) :
    M.Keeps k (evalInitial .dynamic (n + 1) scope value)
      (initialTrail .dynamic (n + 1) scope value) w fun k' v _ => M.value k' τ v := by
  cases value with
  | none =>
      rw [evalInitial, initialTrail]
      exact .pure hw (M.blank hvalue)
  | some e =>
      rw [evalInitial, initialTrail]
      exact stored_keeps ih hw hs hvalue

omit ih in
/-- Parameters get their cells one after another, and hide globals as other variables do. -/
theorem params_keeps {callee : Callee} {index : Nat} {params : List Parameter} {types : List Ty}
    {args : List Value} {Γ' : StaticScope} {m : Machine Typed} (hw : M.world k m.world)
    (hs : M.Backed G k Γ m.scope) (hparams : ParamsOk L G.globals Γ params types Γ')
    (htypes : callee.signature.params.drop index = types)
    (hargs : List.Forall₂ (M.value k) types args) :
    M.Keeps k (declareParams params args) (paramsTrail callee index params args) m
      fun k' _ m' => M.Backed G k' Γ' m'.scope := by
  induction hparams generalizing k index args m with
  | nil =>
      rw [declareParams, paramsTrail]
      · exact .pure hw hs
      all_goals intros; contradiction
  | @cons Γ Γ' p x params types hmutable hhides _ ihp =>
      cases hargs with
      | @cons _ v _ args hv hargs =>
          rw [declareParams, paramsTrail]
          obtain ⟨k₁, hk₁, hw₁, hc⟩ := M.newCell hw hv
          have htype : callee.signature.params[index]? = some x.type := by
            rw [← List.head?_drop, htypes]
            rfl
          have htail : callee.signature.params.drop (index + 1) = types := by
            rw [← List.tail_drop, htypes]
            rfl
          refine .declare hk₁ hw₁ (M.passed hw₁ htype hc) ?_
          have hs₁ := (hs.mono hk₁).declare (c := ⟨_, true⟩) (fun _ => rfl) hc
            fun g hg => ⟨rfl, hhides g hg⟩
          exact ihp hw₁ hs₁ htail (hargs.imp fun _ _ => M.value_mono hk₁)

theorem invoke_step (hG : G.Ok L) {name : String} {arity : Nat} {c : Callable Typed}
    {args : List Value} (hw : M.world k w) (hs : M.Backed G k Γ scope)
    (hc : G.functions name arity = some c)
    (hargs : List.Forall₂ (M.value k) c.signature.params args) :
    M.Keeps k (Eval.invoke .dynamic (n + 1) scope c args)
      (invokeTrail .dynamic (n + 1) scope c args) w
      fun k' v _ => M.value k' c.signature.result v := by
  cases c with
  | builtin b =>
      rw [Eval.invoke, invokeTrail]
      exact M.callBuiltin b hw hargs
  | defined f =>
      rw [Eval.invoke, invokeTrail]
      obtain ⟨Γ₀, hok, hlinks⟩ := hG.body hc
      obtain ⟨Γ₁, hparams, hbody⟩ := hok.body
      have hkeeps : M.Keeps k (Machine.within scope.push do
            declareParams f.params args
            execAll .dynamic n f.body)
          (Trail.within scope.push <|
            Trail.andThen (declareParams f.params args) (paramsTrail f.callee 0 f.params args)
              fun _ => blockTrail .dynamic n f.body) w
          fun k' flow _ => ∀ v, flow = .returned v → M.value k' f.callee.signature.result v := by
        have henter : M.Backed G k Γ₀.push scope.push := hs.enter hok.outer hlinks
        -- The parameters come into the new frame, the globals are seen through the old ones.
        refine .within (.bind (params_keeps (m := ⟨scope.push, w⟩) hw henter hparams rfl hargs) ?_)
        intro k₁ _ m _ _ hw₁ hs₁
        exact ih.block hw₁ hs₁ hbody
      refine .bind_quiet hkeeps ?_
      intro k₁ flow w₁ _ hdone hw₁ hflow
      refine .pure hw₁ ?_
      cases flow with
      | returned v => exact hflow v rfl
      | next =>
          -- The body fell off its end, so nothing has to be a value of the result.
          refine M.blank (hok.returns.resolve_right fun hreturns => ?_)
          have hbodydone := Run.within_done (congrArg Prod.fst hdone)
          obtain ⟨-, -, hlast⟩ := Run.bind_done hbodydone
          obtain ⟨v, hv⟩ := (exec_returns n).2 hreturns hlast
          cases hv

omit ih in
private theorem flows_next {result : Ty} {m : Machine Typed} (hs : M.Backed G k Γ m.scope) :
    M.Flows G result Γ k .next m :=
  ⟨fun _ h => (by cases h), hs⟩

omit ih in
/-- What acts on the world alone leaves the names as they are. -/
private theorem inWorld_keeps {α : Type} {m : Machine Typed} {x : RuntimeScope Typed → Run World α}
    {t : RuntimeScope Typed → Trail World Typed} {post : κ → α → Prop}
    (hs : M.Backed G k Γ m.scope)
    (hx : M.Keeps k (x m.scope) (t m.scope) m.world fun k' a _ => post k' a) :
    M.Keeps k (Machine.inWorld x) (Trail.inWorld t) m
      fun k' a m' => post k' a ∧ M.Backed G k' Γ m'.scope :=
  .inWorld (.imp hx fun _ _ _ hk hpost => ⟨hpost, hs.mono hk⟩)

private theorem inBlock_keeps {result : Ty} {body : List (Stmt Typed)} {m : Machine Typed}
    (hw : M.world k m.world) (hs : M.Backed G k Γ m.scope)
    (hbody : BlockOk L G.globals result Γ.push body) :
    M.Keeps k (Machine.inBlock (execAll .dynamic n body))
      (Trail.inBlock (blockTrail .dynamic n body)) m (M.Flows G result Γ) := by
  have hblock := ih.block (m := ⟨m.scope.push, m.world⟩) hw hs.push hbody
  -- What the block declares is gone after it, and what it stored stays.
  refine .inBlock (.imp hblock ?_)
  intro k₁ flow m₁ hk₁ hflow
  exact ⟨hflow, hs.mono hk₁⟩

theorem exec_step {result : Ty} {s : Stmt Typed} {Γ' : StaticScope} {m : Machine Typed}
    (hw : M.world k m.world) (hs : M.Backed G k Γ m.scope)
    (hok : StmtOk L G.globals result Γ s Γ') :
    M.Keeps k (Eval.exec .dynamic (n + 1) s) (execTrail .dynamic (n + 1) s) m
      (M.Flows G result Γ') := by
  unfold execTrail
  refine .closing ?_ fun k' hk hw' _ => M.executed hk hw hw'
  cases hok with
  | perform he =>
      rw [Eval.exec]
      exact .map (inWorld_keeps hs (ih.eval hw hs he)) fun _ _ _ _ h => flows_next h.2
  | declare hmutable hvalue hhides =>
      rw [Eval.exec]
      refine .bind (inWorld_keeps hs (ih.initial hw hs hvalue)) ?_
      rintro k₁ v m₁ - - hw₁ ⟨hv, hs₁⟩
      obtain ⟨k₂, hk₂, hw₂, hc⟩ := M.newCell hw₁ hv
      refine .declare hk₂ hw₂ (M.bound hw₂ hc) ?_
      have hs₂ := (hs₁.mono hk₂).declare (c := ⟨_, true⟩) (fun _ => rfl) hc
        fun g hg => ⟨rfl, hhides g hg⟩
      exact .pure hw₂ (flows_next hs₂)
  | @assignVar _ o x name value hx hmutable hvalue =>
      rw [Eval.exec]
      have hassign : StmtOk L G.globals result Γ (.assign (.var o x.type x name) value) Γ :=
        .assignVar hx hmutable hvalue
      exact .map (inWorld_keeps hs (ih.assign hw hs hassign)) fun _ _ _ _ h => flows_next h.2
  | @assignElement _ o τ x name index value hreceiver hvalue =>
      rw [Eval.exec]
      have hassign : StmtOk L G.globals result Γ (.assign (.element o τ x name index) value) Γ :=
        .assignElement hreceiver hvalue
      exact .map (inWorld_keeps hs (ih.assign hw hs hassign)) fun _ _ _ _ h => flows_next h.2
  | choose hcondition hboolean hyes hno =>
      rw [Eval.exec]
      refine .bind (inWorld_keeps hs (ih.condition hw hs hcondition hboolean)) ?_
      rintro k₁ b m₁ - - hw₁ ⟨-, hs₁⟩
      cases b with
      | true => exact inBlock_keeps ih hw₁ hs₁ hyes
      | false => exact inBlock_keeps ih hw₁ hs₁ hno
  | @switch _ subject cases hsubject hcases =>
      rw [Eval.exec]
      have hselect : M.Keeps k
          (do select .dynamic n m.scope (← Eval.eval .dynamic n m.scope subject) cases)
          (Trail.andThen (Eval.eval .dynamic n m.scope subject)
            (evalTrail .dynamic n m.scope subject)
            fun v => selectTrail .dynamic n m.scope v cases) m.world
          fun _ body _ => ∀ b, body = some b → BlockOk L G.globals result Γ.push b := by
        refine .bind (ih.eval hw hs hsubject) ?_
        intro k₁ v w₁ hk₁ _ hw₁ _
        exact ih.select hw₁ (hs.mono hk₁) hcases
      refine .bind (inWorld_keeps hs hselect) ?_
      rintro k₁ body m₁ - - hw₁ ⟨hbody, hs₁⟩
      cases body with
      | none => exact .pure hw₁ (flows_next hs₁)
      | some body => exact inBlock_keeps ih hw₁ hs₁ (hbody body rfl)
  | loop hcondition hboolean hbody =>
      rw [Eval.exec]
      exact ih.loop hw hs hcondition hboolean hbody
  | giveBack hvalue =>
      rw [Eval.exec]
      refine .map (inWorld_keeps hs (stored_keeps ih hw hs hvalue)) ?_
      rintro k₁ v m₁ - ⟨hv, hs₁⟩
      exact ⟨fun u hu => by cases hu; exact hv, hs₁⟩

theorem block_step {result : Ty} {body : List (Stmt Typed)} {m : Machine Typed}
    (hw : M.world k m.world) (hs : M.Backed G k Γ m.scope)
    (hbody : BlockOk L G.globals result Γ body) :
    M.Keeps k (execAll .dynamic (n + 1) body) (blockTrail .dynamic (n + 1) body) m
      fun k' flow _ => ∀ v, flow = .returned v → M.value k' result v := by
  cases hbody with
  | nil =>
      rw [execAll, blockTrail]
      exact .pure hw fun _ h => by cases h
  | cons hstmt hrest =>
      rw [execAll, blockTrail]
      refine .bind (ih.exec hw hs hstmt) ?_
      rintro k₁ flow m₁ - - hw₁ ⟨hv, hs₁⟩
      cases flow with
      | next => exact ih.block hw₁ hs₁ hrest
      | returned v => exact .pure hw₁ hv

theorem loop_step {result : Ty} {condition : Expr Typed} {body : List (Stmt Typed)}
    {m : Machine Typed} (hw : M.world k m.world) (hs : M.Backed G k Γ m.scope)
    (hcondition : HasType L Γ condition) (hboolean : condition.type = .boolean)
    (hbody : BlockOk L G.globals result Γ.push body) :
    M.Keeps k (execLoop .dynamic (n + 1) condition body)
      (loopTrail .dynamic (n + 1) condition body) m (M.Flows G result Γ) := by
  rw [execLoop, loopTrail]
  refine .bind (inWorld_keeps hs (ih.condition hw hs hcondition hboolean)) ?_
  rintro k₁ b m₁ - - hw₁ ⟨-, hs₁⟩
  cases b with
  | false => exact .pure hw₁ (flows_next hs₁)
  | true =>
      refine .bind (inBlock_keeps ih hw₁ hs₁ hbody) ?_
      rintro k₂ flow m₂ - - hw₂ ⟨hv, hs₂⟩
      cases flow with
      | next => exact ih.loop hw₂ hs₂ hcondition hboolean hbody
      | returned v => exact .pure hw₂ ⟨hv, hs₂⟩

theorem select_step {result : Ty} {v : Value} {cases : List (Case Typed)} (hw : M.world k w)
    (hs : M.Backed G k Γ scope) (hcases : CasesOk L G.globals result Γ cases) :
    M.Keeps k (Eval.select .dynamic (n + 1) scope v cases)
      (selectTrail .dynamic (n + 1) scope v cases) w
      fun _ body _ => ∀ b, body = some b → BlockOk L G.globals result Γ.push b := by
  cases hcases with
  | nil =>
      rw [Eval.select, selectTrail]
      exact .pure hw fun _ h => by cases h
  | default hbody _ =>
      rw [Eval.select, selectTrail]
      exact .pure hw fun _ h => by cases h; exact hbody
  | case hvalue hbody hrest =>
      rw [Eval.select, selectTrail]
      refine .bind (ih.eval hw hs hvalue) ?_
      intro k₁ u w₁ hk₁ _ hw₁ _
      refine .bind_still (.ask _) hw₁ (fun e h => (Run.ask_ne_failed h).elim) ?_
      intro same _
      cases same with
      | true => exact .pure hw₁ fun _ h => by cases h; exact hbody
      | false => exact ih.select hw₁ (hs.mono hk₁) hrest

theorem assign_step {result : Ty} {receiver value : Expr Typed} (hw : M.world k w)
    (hs : M.Backed G k Γ scope) (hok : StmtOk L G.globals result Γ (.assign receiver value) Γ) :
    M.Keeps k (Eval.assign .dynamic (n + 1) scope receiver value)
      (assignTrail .dynamic (n + 1) scope receiver value) w fun _ _ _ => True := by
  cases hok with
  | assignVar hx hmutable hvalue =>
      rw [Eval.assign, assignTrail]
      refine .bind (lookupCell_keeps hw (hs.visible _ _ hx)) ?_
      rintro k₁ c w₁ hk₁ - hw₁ ⟨hcell, hc⟩
      -- The variable that the checker saw may change, and so may whatever has its name now.
      rw [if_pos (hcell hmutable), if_pos (hcell hmutable)]
      refine .bind_quiet (stored_keeps ih hw₁ (hs.mono hk₁) hvalue) ?_
      intro k₂ v w₂ hk₂ _ hw₂ hv
      exact M.writeCell hw₂ (M.cell_mono hk₂ hc) hv
  | assignElement hreceiver hvalue =>
      cases hreceiver with
      | element hx hlist hindex hinteger =>
          rw [Eval.assign, assignTrail]
          refine .bind (lookupCell_keeps hw (hs.visible _ _ hx)) ?_
          rintro k₁ c w₁ hk₁ - hw₁ ⟨-, hc⟩
          rw [hlist] at hc
          refine .bind (M.readCell hw₁ hc) ?_
          intro k₂ u w₂ hk₂ _ hw₂ hu
          refine .bind (M.asList hw₂ hu) ?_
          intro k₃ id w₃ hk₃ _ hw₃ hid
          have hs₃ := ((hs.mono hk₁).mono hk₂).mono hk₃
          refine .bind (ih.eval hw₃ hs₃ hindex) ?_
          intro k₄ i w₄ hk₄ _ hw₄ hi
          rw [hinteger] at hi
          refine .bind (M.asInteger hw₄ hi) ?_
          intro k₅ i w₅ hk₅ _ hw₅ _
          refine .bind_quiet (stored_keeps ih hw₅ ((hs₃.mono hk₄).mono hk₅) hvalue) ?_
          intro k₆ v w₆ hk₆ _ hw₆ hv
          exact M.storeAt i hw₆ (M.value_mono (hk₄.trans (hk₅.trans hk₆)) hid) hv

end Steps

/-! ## §5 Runs -/

variable (M) in
/-- **Every bound.** On typed ground the evaluator keeps the model. -/
theorem kept (hG : G.Ok L) (n : Nat) : M.Kept G n := by
  induction n with
  | zero =>
      -- At the bound nothing happens any more.
      constructor <;> intros <;> exact .unfinished ‹_›
  | succ n ih =>
      exact {
        eval := eval_step ih hG
        condition := condition_step ih
        all := all_step ih
        invoke := invoke_step ih hG
        exec := exec_step ih
        block := block_step ih
        loop := loop_step ih
        initial := initial_step ih
        select := select_step ih
        assign := assign_step ih }

/-- Globals are evaluated where only built-in functions are defined. -/
theorem globals_keeps (n : Nat) {globals : List (Global Typed)} {Γ' : StaticScope}
    {m : Machine Typed} (hw : M.world k m.world) (hs : M.Backed .bare k Γ m.scope)
    (hok : GlobalsOk L Γ globals Γ') :
    M.Keeps k (initGlobals .dynamic n globals) (globalsTrail .dynamic n globals) m
      fun k' _ m' => M.Backed .bare k' Γ' m'.scope := by
  induction hok generalizing k m with
  | nil =>
      rw [initGlobals, globalsTrail]
      exact .pure hw hs
  | @cons Γ Γ' g rest hmutable hvalue _ ihg =>
      rw [initGlobals, globalsTrail]
      refine .bind (inWorld_keeps hs ((M.kept Ground.bare_ok n).initial hw hs hvalue)) ?_
      rintro k₁ v m₁ - - hw₁ ⟨hv, hs₁⟩
      obtain ⟨k₂, hk₂, hw₂, hc⟩ := M.newCell hw₁ hv
      refine .declare hk₂ hw₂ (M.bound hw₂ hc) ?_
      refine ihg hw₂ ((hs₁.mono hk₂).declare (fun h => ?_) hc fun _ h => nomatch h)
      exact hmutable.symm.trans h

/-- **Runs.** A run of a typed program keeps the model from its start to its end, and its value, if
there is one, is an integer as far as the model can tell. -/
theorem run_keeps (n : Nat) {p : Program Typed} (hp : ProgramOk L p) (hw : M.world k w) :
    M.Keeps k (p.run n) (p.trail n) w fun k' v _ => M.value k' .integer v := by
  obtain ⟨hG, Γ, c, σ, hglobals, hlinks, hvisible, hc, hagree, hresult⟩ := hp.ground_ok
  have hstart : M.Backed .bare k Typing.Env.initial.scope builtins :=
    ⟨fun _ _ h => (by cases h), fun _ _ h => (by cases h), fun _ _ => rfl, hp.links_initial⟩
  refine .within (.bind (globals_keeps (m := ⟨builtins, w⟩) n hw hstart hglobals) ?_)
  rintro k₁ - m₁ - - hw₁ hs₁
  refine .inWorld ?_
  -- From here on all globals and all functions are in scope.
  have hfunctions : ∀ name arity, (defineAll m₁.scope p.functions).findFunction name arity =
      p.ground.functions name arity := defineAll_congr hs₁.functions
  have hs₂ : M.Backed p.ground k₁ Γ (defineAll m₁.scope p.functions) := by
    have hall : ∀ name x, Γ.findVariable name = some x →
        M.Binds k₁ (defineAll m₁.scope p.functions) name x := by
      intro name x hx
      obtain ⟨cell, hfind, hcell⟩ := hs₁.visible name x hx
      exact ⟨cell, by rw [findVariable_defineAll]; exact hfind, hcell⟩
    exact ⟨hall, fun name x hx => hall name x ((hvisible name).trans hx), hfunctions, hlinks⟩
  have hmain : (defineAll m₁.scope p.functions).lookupFunction "main" 0 = .ok c := by
    rw [Scope.lookupFunction_ok, hfunctions]
    exact hc
  refine .bind_ok (mapError_eq_ok.mpr hmain) ?_
  have hnone : c.signature.params = [] := List.length_eq_zero_iff.mp (hG.arity hc)
  have hargs : List.Forall₂ (M.value k₁) c.signature.params [] := by
    rw [hnone]
    exact .nil
  refine .imp ((M.kept hG n).invoke hw₁ hs₂ hc hargs) ?_
  intro k₂ v w₂ _ hv
  have hinteger := M.same hagree.2 hv
  rwa [hresult] at hinteger

end Model

end Eval

end DynImp
