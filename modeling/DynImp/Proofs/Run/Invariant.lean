import DynImp.Proofs.Run.Contract
import DynImp.Proofs.Scope

/-!
# Invariants of runs

What every run of every program keeps, checked or not.  An invariant says what is known of
values and of cells, and for each way in which a run touches the world that the knowledge
is not lost.  From these single steps the evaluator keeps it as a whole: by induction on
the bound, all ten parts of it at once.

* **Layer A: invariants** and the scopes they hold in.
* **Layer B: steps**, one for each part of the evaluator, from the parts one level down.
* **Layer C: runs.**
-/

namespace DynImp

namespace Eval

/-! ## §1 Invariants -/

/-- **Invariant.** A contract with what is known of values and cells, and the proof that every
access to the world keeps it. -/
structure Invariant (κ : Type) [Preorder κ] (ν : Notes) extends Contract κ ν where
  /-- What is known of a value. -/
  value : κ → Value → Prop
  /-- What is known of a cell. -/
  cell : κ → Cell → Prop
  value_mono : ∀ {k k' v}, k ≤ k' → value k v → value k' v
  cell_mono : ∀ {k k' c}, k ≤ k' → cell k c → cell k' c
  /-- Every fault may occur. -/
  faults : ∀ e, fault e
  scalar : ∀ {k} s, value k (.scalar s)
  read : ∀ {k w c}, world k w → cell k c → value k (w.cells.getD c.location .nil)
  items : ∀ {k w id v}, world k w → v ∈ w.heap.items id → value k v
  newList : ∀ {k w items}, world k w → (∀ v ∈ items, value k v) →
    ∃ k', k ≤ k' ∧ world k' (World.newList items w).2 ∧ value k' (.list w.heap.lists.size)
  newCell : ∀ {k w v} mutable, world k w → value k v →
    ∃ k', k ≤ k' ∧ world k' (World.newCell v w).2 ∧ cell k' ⟨w.cells.size, mutable⟩
  write : ∀ {k w c v}, world k w → cell k c → c.mutable = true → value k v →
    ∃ k', k ≤ k' ∧ world k' (World.writeCell c.location v w).2
  store : ∀ {k w id position v}, world k w → value k (.list id) → value k v →
    w.heap.contains? v id = some false → position < (w.heap.items id).length →
    ∃ k', k ≤ k' ∧ world k' (World.setItem id position v w).2
  emit : ∀ {k w} text, world k w → world k (World.emit text w).2
  evaluated : ∀ {k k' scope e before} {result : Outcome Fault Value × World}, k ≤ k' →
    world k before → scope.EachVariable (cell k) → world k' result.2 →
    (∀ v, result.1 = .done v → value k' v) → event k' (.evaluated scope e before result)
  executed : ∀ {k k' s before} {result : Outcome Fault Flow × Machine ν}, k ≤ k' →
    world k before.world → before.scope.EachVariable (cell k) → world k' result.2.world →
    (∀ v, result.1 = .done (.returned v) → value k' v) → event k' (.executed s before result)
  applied : ∀ {k op a b w}, world k w → value k a → value k b → event k (.applied op a b w)
  bound : ∀ {k b c w}, world k w → cell k c → event k (.bound b c w)
  called : ∀ {k b f args w}, world k w → (∀ v ∈ args, value k v) → event k (.called b f args w)
  passed : ∀ {k b index c w}, world k w → cell k c → event k (.passed b index c w)

/-- A discipline under which bodies run in frames that the caller has in scope. -/
def Discipline.Enclosed {ν : Notes} (d : Discipline ν) : Prop :=
  ∀ scope, ∀ frame ∈ (d.home scope).frames, frame ∈ scope.frames

theorem Discipline.dynamic_enclosed {ν : Notes} :
    (Discipline.dynamic : Discipline ν).Enclosed := fun _ _ h => h

namespace Invariant

variable {κ : Type} [Preorder κ] {ν : Notes} (I : Invariant κ ν)

/-- All variables of a scope have cells of which the invariant holds. -/
def Scoped (k : κ) (scope : RuntimeScope ν) : Prop := scope.EachVariable (I.cell k)

variable {I} {k k' : κ} {scope : RuntimeScope ν} {w : World}

theorem Scoped.mono (hs : I.Scoped k scope) (hk : k ≤ k') : I.Scoped k' scope :=
  hs.imp fun _ => I.cell_mono hk

/-! ## §2 Accesses -/

section Accesses

theorem asBoolean_keeps {v : Value} (hw : I.world k w) :
    I.Keeps k (asBoolean v) Trail.quiet w fun _ _ _ => True := by
  unfold asBoolean
  split
  · exact .pure hw trivial
  · exact .fail hw (I.faults _)

theorem asInteger_keeps {v : Value} (hw : I.world k w) :
    I.Keeps k (asInteger v) Trail.quiet w fun _ _ _ => True := by
  unfold asInteger
  split
  · exact .pure hw trivial
  · exact .fail hw (I.faults _)

theorem asList_keeps {v : Value} (hw : I.world k w) (hv : I.value k v) :
    I.Keeps k (asList v) Trail.quiet w fun k' id _ => I.value k' (.list id) := by
  unfold asList
  split
  · exact .pure hw hv
  · exact .fail hw (I.faults _)

theorem lookupCell_keeps {name : String} (hw : I.world k w) (hs : I.Scoped k scope) :
    I.Keeps k (lookupCell scope name) Trail.quiet w fun k' c _ => I.cell k' c := by
  refine .ofExcept hw ?_ fun e _ => I.faults e
  intro c hc
  cases hfind : scope.findVariable name with
  | none => rw [Scope.lookupVariable, hfind] at hc; cases hc
  | some found =>
      rw [Scope.lookupVariable, hfind] at hc
      cases hc
      exact hs.find hfind

theorem readCell_keeps {c : Cell} (hw : I.world k w) (hc : I.cell k c) :
    I.Keeps k (World.readCell c.location) Trail.quiet w fun k' v _ => I.value k' v := by
  refine .still (fun _ => rfl) hw ?_ fun e _ => I.faults e
  intro v hv
  cases hv
  exact I.read hw hc

theorem writeCell_keeps {c : Cell} {v : Value} (hw : I.world k w) (hc : I.cell k c)
    (hmutable : c.mutable = true) (hv : I.value k v) :
    I.Keeps k (World.writeCell c.location v) Trail.quiet w fun _ _ _ => True := by
  obtain ⟨k', hk, hw'⟩ := I.write hw hc hmutable hv
  exact .done rfl hk hw' trivial

theorem newList_keeps {items : List Value} (hw : I.world k w) (hitems : ∀ v ∈ items, I.value k v) :
    I.Keeps k (World.newList items) Trail.quiet w fun k' v _ => I.value k' v := by
  obtain ⟨k', hk, hw', hv⟩ := I.newList hw hitems
  exact .done rfl hk hw' hv

theorem storeAt_keeps {id : ListId} {index : Int} {v : Value} (hw : I.world k w)
    (hid : I.value k (.list id)) (hv : I.value k v) :
    I.Keeps k (storeAt id index v) Trail.quiet w fun _ _ _ => True := by
  refine .storeAt hw (I.faults _) (fun _ => I.faults _) fun place hplace hnot => ?_
  obtain ⟨k', hk, hw'⟩ := I.store hw hid hv hnot hplace
  exact .done rfl hk hw' trivial

theorem apply_keeps {op : BinaryOp} {a b : Value} (hw : I.world k w) :
    I.Keeps k (apply op a b) Trail.quiet w fun k' v _ => I.value k' v := by
  refine .still (apply_still op a b) hw ?_ fun e _ => I.faults e
  intro v hv
  obtain ⟨s, rfl⟩ := apply_scalar op a b w v hv
  exact I.scalar s

theorem callBuiltin_keeps {b : Builtin} {args : List Value} (hw : I.world k w) :
    I.Keeps k (callBuiltin b args) Trail.quiet w fun k' v _ => I.value k' v := by
  unfold callBuiltin
  split
  · next v =>
      exact .print hw (fun text => I.emit text hw) (fun _ => I.faults _) fun _ => I.scalar .nil
  · next v =>
      refine .ofExcept hw ?_ fun e _ => I.faults e
      intro u hu
      unfold log at hu
      split at hu
      · split at hu <;> cases hu
        exact I.scalar _
      · cases hu
  · next number base =>
      refine .ofExcept hw ?_ fun e _ => I.faults e
      intro u hu
      unfold converter at hu
      split at hu
      · split at hu <;> cases hu
        exact I.scalar _
      · cases hu
  · exact .fail hw (I.faults _)

end Accesses

/-! ## §3 Steps -/

variable (I) in
/-- What is known when a statement is left. -/
def Flows (k : κ) (flow : Flow) (m : Machine ν) : Prop :=
  (∀ v, flow = .returned v → I.value k v) ∧ I.Scoped k m.scope

variable (I) in
/-- **The evaluator keeps the invariant** down to a bound on the depth, in all its parts. -/
structure Kept (d : Discipline ν) (n : Nat) : Prop where
  eval : ∀ {k w scope} e, I.world k w → I.Scoped k scope →
    I.Keeps k (eval d n scope e) (evalTrail d n scope e) w fun k' v _ => I.value k' v
  condition : ∀ {k w scope} e, I.world k w → I.Scoped k scope →
    I.Keeps k (evalCondition d n scope e) (conditionTrail d n scope e) w fun _ _ _ => True
  all : ∀ {k w scope} es, I.world k w → I.Scoped k scope →
    I.Keeps k (evalAll d n scope es) (allTrail d n scope es) w
      fun k' vs _ => ∀ v ∈ vs, I.value k' v
  invoke : ∀ {k w scope} f args, I.world k w → I.Scoped k scope → (∀ v ∈ args, I.value k v) →
    I.Keeps k (invoke d n scope f args) (invokeTrail d n scope f args) w
      fun k' v _ => I.value k' v
  exec : ∀ {k m} s, I.world k m.world → I.Scoped k m.scope →
    I.Keeps k (exec d n s) (execTrail d n s) m I.Flows
  block : ∀ {k m} body, I.world k m.world → I.Scoped k m.scope →
    I.Keeps k (execAll d n body) (blockTrail d n body) m I.Flows
  loop : ∀ {k m} condition body, I.world k m.world → I.Scoped k m.scope →
    I.Keeps k (execLoop d n condition body) (loopTrail d n condition body) m I.Flows
  initial : ∀ {k w scope} value, I.world k w → I.Scoped k scope →
    I.Keeps k (evalInitial d n scope value) (initialTrail d n scope value) w
      fun k' v _ => I.value k' v
  select : ∀ {k w scope v} cases, I.world k w → I.Scoped k scope →
    I.Keeps k (select d n scope v cases) (selectTrail d n scope v cases) w fun _ _ _ => True
  assign : ∀ {k w scope} receiver value, I.world k w → I.Scoped k scope →
    I.Keeps k (assign d n scope receiver value) (assignTrail d n scope receiver value) w
      fun _ _ _ => True

section Steps

variable {d : Discipline ν} {n : Nat} (ih : I.Kept d n)

include ih

theorem eval_step (e : Expr ν) (hw : I.world k w) (hs : I.Scoped k scope) :
    I.Keeps k (Eval.eval d (n + 1) scope e) (evalTrail d (n + 1) scope e) w
      fun k' v _ => I.value k' v := by
  unfold evalTrail
  -- The event at the end tells the value, which the cases below speak about.
  refine .closing ?_ fun k' hk hw' hv => I.evaluated hk hw hs hw' hv
  cases e with
  | literal _ _ s =>
      rw [Eval.eval]
      exact .pure hw (I.scalar s)
  | group _ _ inner =>
      rw [Eval.eval]
      exact ih.eval inner hw hs
  | binary _ op left right =>
      cases op with
      | and =>
          simp only [Eval.eval]
          refine .bind (ih.condition left hw hs) ?_
          intro k₁ b w₁ hk₁ _ hw₁ _
          cases b with
          | true => exact .map (ih.condition right hw₁ (hs.mono hk₁)) fun _ _ _ _ _ => I.scalar _
          | false => exact .pure hw₁ (I.scalar _)
      | or =>
          simp only [Eval.eval]
          refine .bind (ih.condition left hw hs) ?_
          intro k₁ b w₁ hk₁ _ hw₁ _
          cases b with
          | true => exact .pure hw₁ (I.scalar _)
          | false => exact .map (ih.condition right hw₁ (hs.mono hk₁)) fun _ _ _ _ _ => I.scalar _
      | less | greater | equal | notEqual | add | subtract | multiply | divide | power =>
          simp only [Eval.eval]
          refine .bind (ih.eval left hw hs) ?_
          intro k₁ a w₁ hk₁ _ hw₁ ha
          refine .bind (ih.eval right hw₁ (hs.mono hk₁)) ?_
          intro k₂ b w₂ hk₂ _ hw₂ hb
          exact .opening (I.applied hw₂ (I.value_mono hk₂ ha) hb) fun _ => apply_keeps hw₂
  | var _ _ _ name =>
      rw [Eval.eval]
      refine .bind_quiet (lookupCell_keeps hw hs) ?_
      intro k₁ c w₁ _ _ hw₁ hc
      exact readCell_keeps hw₁ hc
  | element _ _ _ name index =>
      rw [Eval.eval]
      refine .bind (lookupCell_keeps hw hs) ?_
      intro k₁ c w₁ hk₁ _ hw₁ hc
      refine .bind (readCell_keeps hw₁ hc) ?_
      intro k₂ v w₂ hk₂ _ hw₂ hv
      refine .bind (asList_keeps hw₂ hv) ?_
      intro k₃ id w₃ hk₃ _ hw₃ _
      have hs₃ := ((hs.mono hk₁).mono hk₂).mono hk₃
      refine .bind_quiet (ih.eval index hw₃ hs₃) ?_
      -- Whatever the index does to the name, its list was found before.
      intro k₄ i w₄ _ _ hw₄ _
      refine .bind_quiet (asInteger_keeps hw₄) ?_
      intro k₅ i w₅ _ _ hw₅ _
      exact .elementAt hw₅ (fun _ hu => I.items hw₅ hu) fun _ => I.faults _
  | call _ _ callee name args =>
      rw [Eval.eval]
      refine .bind_still (.ofExcept _) hw (fun e _ => I.faults e) ?_
      intro f _
      refine .bind (ih.all args hw hs) ?_
      intro k₁ vs w₁ hk₁ _ hw₁ hvs
      exact .opening (I.called hw₁ hvs) fun _ => ih.invoke f vs hw₁ (hs.mono hk₁) hvs
  | list _ _ items =>
      rw [Eval.eval]
      refine .bind_quiet (ih.all items hw hs) ?_
      intro k₁ vs w₁ _ _ hw₁ hvs
      exact newList_keeps hw₁ hvs

theorem condition_step (e : Expr ν) (hw : I.world k w) (hs : I.Scoped k scope) :
    I.Keeps k (evalCondition d (n + 1) scope e) (conditionTrail d (n + 1) scope e) w
      fun _ _ _ => True := by
  rw [evalCondition, conditionTrail]
  refine .bind_quiet (ih.eval e hw hs) ?_
  intro k₁ v w₁ _ _ hw₁ _
  exact asBoolean_keeps hw₁

theorem all_step (es : List (Expr ν)) (hw : I.world k w) (hs : I.Scoped k scope) :
    I.Keeps k (evalAll d (n + 1) scope es) (allTrail d (n + 1) scope es) w
      fun k' vs _ => ∀ v ∈ vs, I.value k' v := by
  cases es with
  | nil =>
      rw [evalAll, allTrail]
      exact .pure hw fun v hv => (List.not_mem_nil hv).elim
  | cons e rest =>
      rw [evalAll, allTrail]
      refine .bind (ih.eval e hw hs) ?_
      intro k₁ v w₁ hk₁ _ hw₁ hv
      refine .map (ih.all rest hw₁ (hs.mono hk₁)) ?_
      intro k₂ vs w₂ hk₂ hvs u hu
      rcases List.mem_cons.mp hu with rfl | hu
      · exact I.value_mono hk₂ hv
      · exact hvs u hu

omit ih in
theorem params_keeps {callee : ν.callee} {index : Nat} {params : List Parameter}
    {args : List Value} {m : Machine ν} (hw : I.world k m.world) (hs : I.Scoped k m.scope)
    (hargs : ∀ v ∈ args, I.value k v) :
    I.Keeps k (declareParams params args) (paramsTrail callee index params args) m
      fun k' _ m' => I.Scoped k' m'.scope := by
  induction params generalizing k index args m with
  | nil =>
      rw [declareParams, paramsTrail]
      · exact .pure hw hs
      all_goals intros; contradiction
  | cons p params ihp =>
      cases args with
      | nil =>
          rw [declareParams, paramsTrail]
          · exact .pure hw hs
          all_goals intros; contradiction
      | cons v args =>
          rw [declareParams, paramsTrail]
          obtain ⟨k₁, hk₁, hw₁, hc⟩ := I.newCell true hw (hargs v List.mem_cons_self)
          refine .declare hk₁ hw₁ (I.passed hw₁ hc) ?_
          refine ihp hw₁ ((hs.mono hk₁).defineVariable hc) ?_
          exact fun u hu => I.value_mono hk₁ (hargs u (List.mem_cons_of_mem _ hu))

theorem invoke_step (henclosed : d.Enclosed) (f : Callable ν) (args : List Value)
    (hw : I.world k w) (hs : I.Scoped k scope) (hargs : ∀ v ∈ args, I.value k v) :
    I.Keeps k (Eval.invoke d (n + 1) scope f args) (invokeTrail d (n + 1) scope f args) w
      fun k' v _ => I.value k' v := by
  cases f with
  | builtin b =>
      rw [Eval.invoke, invokeTrail]
      exact callBuiltin_keeps hw
  | defined f =>
      rw [Eval.invoke, invokeTrail]
      have hhome : I.Scoped k (d.home scope).push :=
        Scope.EachVariable.push fun frame hframe => hs frame (henclosed scope frame hframe)
      have hbody : I.Keeps k (Machine.within (d.home scope).push do
            declareParams f.params args
            execAll d n f.body)
          (Trail.within (d.home scope).push <|
            Trail.andThen (declareParams f.params args) (paramsTrail f.callee 0 f.params args)
              fun _ => blockTrail d n f.body) w
          fun k' flow _ => ∀ v, flow = .returned v → I.value k' v := by
        refine .within (.bind (params_keeps hw hhome hargs) ?_)
        intro k₁ _ m hk₁ _ hw₁ hs₁
        exact .imp (ih.block f.body hw₁ hs₁) fun _ _ _ _ hflow => hflow.1
      refine .map hbody ?_
      intro k₁ flow w₁ hk₁ hflow
      cases flow with
      | next => exact I.scalar .nil
      | returned v => exact hflow v rfl

omit ih in
private theorem flows_next {m : Machine ν} (hs : I.Scoped k m.scope) : I.Flows k .next m :=
  ⟨fun _ h => (by cases h), hs⟩

omit ih in
/-- What acts on the world alone leaves the names as they are. -/
private theorem inWorld_keeps {α : Type} {m : Machine ν} {x : RuntimeScope ν → Run World α}
    {t : RuntimeScope ν → Trail World ν} {post : κ → α → Prop} (hs : I.Scoped k m.scope)
    (hx : I.Keeps k (x m.scope) (t m.scope) m.world fun k' a _ => post k' a) :
    I.Keeps k (Machine.inWorld x) (Trail.inWorld t) m
      fun k' a m' => post k' a ∧ I.Scoped k' m'.scope :=
  .inWorld (.imp hx fun _ _ _ hk hpost => ⟨hpost, hs.mono hk⟩)

/-- What a block declares is out of scope after it. -/
private theorem inBlock_keeps (body : List (Stmt ν)) {m : Machine ν} (hw : I.world k m.world)
    (hs : I.Scoped k m.scope) :
    I.Keeps k (Machine.inBlock (execAll d n body)) (Trail.inBlock (blockTrail d n body)) m
      I.Flows := by
  have hpush : I.Scoped k m.scope.push := hs.push
  refine .inBlock (.imp (ih.block (m := ⟨m.scope.push, m.world⟩) body hw hpush) ?_)
  intro k₁ flow m₁ hk₁ hflow
  exact ⟨hflow.1, hs.mono hk₁⟩

theorem exec_step (s : Stmt ν) {m : Machine ν} (hw : I.world k m.world)
    (hs : I.Scoped k m.scope) :
    I.Keeps k (Eval.exec d (n + 1) s) (execTrail d (n + 1) s) m I.Flows := by
  unfold execTrail
  refine .closing ?_ fun k' hk hw' hflow =>
    I.executed hk hw hs hw' fun v hv => (hflow _ hv).1 v rfl
  cases s with
  | perform e =>
      rw [Eval.exec]
      exact .map (inWorld_keeps hs (ih.eval e hw hs)) fun _ _ _ _ h => flows_next h.2
  | declare _ binding name _ value =>
      rw [Eval.exec]
      refine .bind (inWorld_keeps hs (ih.initial value hw hs)) ?_
      rintro k₁ v m₁ - - hw₁ ⟨hv, hs₁⟩
      obtain ⟨k₂, hk₂, hw₂, hc⟩ := I.newCell true hw₁ hv
      refine .declare hk₂ hw₂ (I.bound hw₂ hc) ?_
      exact .pure hw₂ (flows_next ((hs₁.mono hk₂).defineVariable hc))
  | assign receiver value =>
      rw [Eval.exec]
      exact .map (inWorld_keeps hs (ih.assign receiver value hw hs)) fun _ _ _ _ h => flows_next h.2
  | choose condition yes no =>
      rw [Eval.exec]
      refine .bind (inWorld_keeps hs (ih.condition condition hw hs)) ?_
      rintro k₁ b m₁ - - hw₁ ⟨-, hs₁⟩
      cases b with
      | true => exact inBlock_keeps ih yes hw₁ hs₁
      | false => exact inBlock_keeps ih no hw₁ hs₁
  | switch subject cases =>
      rw [Eval.exec]
      have hselect : I.Keeps k (do select d n m.scope (← Eval.eval d n m.scope subject) cases)
          (Trail.andThen (Eval.eval d n m.scope subject) (evalTrail d n m.scope subject)
            fun v => selectTrail d n m.scope v cases) m.world fun _ _ _ => True := by
        refine .bind (ih.eval subject hw hs) ?_
        intro k₁ v w₁ hk₁ _ hw₁ _
        exact ih.select cases hw₁ (hs.mono hk₁)
      refine .bind (inWorld_keeps hs hselect) ?_
      rintro k₁ body m₁ - - hw₁ ⟨-, hs₁⟩
      cases body with
      | none => exact .pure hw₁ (flows_next hs₁)
      | some body => exact inBlock_keeps ih body hw₁ hs₁
  | loop condition body =>
      rw [Eval.exec]
      exact ih.loop condition body hw hs
  | giveBack value =>
      rw [Eval.exec]
      refine .map (inWorld_keeps hs (ih.eval value hw hs)) ?_
      rintro k₁ v m₁ - ⟨hv, hs₁⟩
      exact ⟨fun u hu => by cases hu; exact hv, hs₁⟩

theorem block_step (body : List (Stmt ν)) {m : Machine ν} (hw : I.world k m.world)
    (hs : I.Scoped k m.scope) :
    I.Keeps k (execAll d (n + 1) body) (blockTrail d (n + 1) body) m I.Flows := by
  cases body with
  | nil =>
      rw [execAll, blockTrail]
      exact .pure hw (flows_next hs)
  | cons s rest =>
      rw [execAll, blockTrail]
      refine .bind (ih.exec s hw hs) ?_
      rintro k₁ flow m₁ - - hw₁ ⟨hv, hs₁⟩
      cases flow with
      | next => exact ih.block rest hw₁ hs₁
      | returned v => exact .pure hw₁ ⟨hv, hs₁⟩

theorem loop_step (condition : Expr ν) (body : List (Stmt ν)) {m : Machine ν}
    (hw : I.world k m.world) (hs : I.Scoped k m.scope) :
    I.Keeps k (execLoop d (n + 1) condition body) (loopTrail d (n + 1) condition body) m
      I.Flows := by
  rw [execLoop, loopTrail]
  refine .bind (inWorld_keeps hs (ih.condition condition hw hs)) ?_
  rintro k₁ b m₁ - - hw₁ ⟨-, hs₁⟩
  cases b with
  | false => exact .pure hw₁ (flows_next hs₁)
  | true =>
      refine .bind (inBlock_keeps ih body hw₁ hs₁) ?_
      rintro k₂ flow m₂ - - hw₂ ⟨hv, hs₂⟩
      cases flow with
      | next => exact ih.loop condition body hw₂ hs₂
      | returned v => exact .pure hw₂ ⟨hv, hs₂⟩

theorem initial_step (value : Option (Expr ν)) (hw : I.world k w) (hs : I.Scoped k scope) :
    I.Keeps k (evalInitial d (n + 1) scope value) (initialTrail d (n + 1) scope value) w
      fun k' v _ => I.value k' v := by
  cases value with
  | none =>
      rw [evalInitial, initialTrail]
      exact .pure hw (I.scalar .nil)
  | some e =>
      rw [evalInitial, initialTrail]
      exact ih.eval e hw hs

theorem select_step {v : Value} (cases : List (Case ν)) (hw : I.world k w)
    (hs : I.Scoped k scope) :
    I.Keeps k (Eval.select d (n + 1) scope v cases) (selectTrail d (n + 1) scope v cases) w
      fun _ _ _ => True := by
  rcases cases with _ | ⟨⟨offset, _ | value, body⟩, rest⟩
  · rw [Eval.select, selectTrail]
    exact .pure hw trivial
  · rw [Eval.select, selectTrail]
    exact .pure hw trivial
  · rw [Eval.select, selectTrail]
    refine .bind (ih.eval value hw hs) ?_
    intro k₁ u w₁ hk₁ _ hw₁ _
    refine .bind_still (.ask _) hw₁ (fun e _ => I.faults e) ?_
    intro same _
    cases same with
    | true => exact .pure hw₁ trivial
    | false => exact ih.select rest hw₁ (hs.mono hk₁)

theorem assign_step (receiver value : Expr ν) (hw : I.world k w) (hs : I.Scoped k scope) :
    I.Keeps k (Eval.assign d (n + 1) scope receiver value)
      (assignTrail d (n + 1) scope receiver value) w fun _ _ _ => True := by
  cases receiver with
  | var _ _ _ name =>
      rw [Eval.assign, assignTrail]
      refine .bind (lookupCell_keeps hw hs) ?_
      intro k₁ c w₁ hk₁ _ hw₁ hc
      split
      · next hmutable =>
          refine .bind_quiet (ih.eval value hw₁ (hs.mono hk₁)) ?_
          intro k₂ v w₂ hk₂ _ hw₂ hv
          exact writeCell_keeps hw₂ (I.cell_mono hk₂ hc) hmutable hv
      · exact .fail hw₁ (I.faults _)
  | element _ _ _ name index =>
      rw [Eval.assign, assignTrail]
      refine .bind (lookupCell_keeps hw hs) ?_
      intro k₁ c w₁ hk₁ _ hw₁ hc
      refine .bind (readCell_keeps hw₁ hc) ?_
      intro k₂ u w₂ hk₂ _ hw₂ hu
      refine .bind (asList_keeps hw₂ hu) ?_
      intro k₃ id w₃ hk₃ _ hw₃ hid
      have hs₃ := ((hs.mono hk₁).mono hk₂).mono hk₃
      -- Index and value may make and change lists; the list itself is known all the while.
      refine .bind (ih.eval index hw₃ hs₃) ?_
      intro k₄ i w₄ hk₄ _ hw₄ _
      refine .bind (asInteger_keeps hw₄) ?_
      intro k₅ i w₅ hk₅ _ hw₅ _
      refine .bind_quiet (ih.eval value hw₅ ((hs₃.mono hk₄).mono hk₅)) ?_
      intro k₆ v w₆ hk₆ _ hw₆ hv
      exact storeAt_keeps hw₆ (I.value_mono (hk₄.trans (hk₅.trans hk₆)) hid) hv
  | literal | group | binary | call | list =>
      rw [Eval.assign, assignTrail]
      · exact .fail hw (I.faults _)
      all_goals intros; contradiction

end Steps

/-! ## §4 Runs -/

variable (I) in
/-- **Every bound.** The evaluator keeps the invariant. -/
theorem kept {d : Discipline ν} (henclosed : d.Enclosed) (n : Nat) : I.Kept d n := by
  induction n with
  | zero =>
      -- At the bound nothing happens any more.
      constructor <;> intros <;> exact .unfinished ‹_›
  | succ n ih =>
      exact {
        eval := eval_step ih
        condition := condition_step ih
        all := all_step ih
        invoke := invoke_step ih henclosed
        exec := fun s => exec_step ih s
        block := fun body => block_step ih body
        loop := fun condition body => loop_step ih condition body
        initial := initial_step ih
        select := select_step ih
        assign := assign_step ih }

variable {d : Discipline ν} (henclosed : d.Enclosed)

include henclosed

theorem globals_keeps (n : Nat) (globals : List (Global ν)) {m : Machine ν}
    (hw : I.world k m.world) (hs : I.Scoped k m.scope) :
    I.Keeps k (initGlobals d n globals) (globalsTrail d n globals) m
      fun k' _ m' => I.Scoped k' m'.scope := by
  induction globals generalizing k m with
  | nil =>
      rw [initGlobals, globalsTrail]
      exact .pure hw hs
  | cons g rest ihg =>
      rw [initGlobals, globalsTrail]
      refine .bind (inWorld_keeps hs ((I.kept henclosed n).initial g.value hw hs)) ?_
      rintro k₁ v m₁ - - hw₁ ⟨hv, hs₁⟩
      obtain ⟨k₂, hk₂, hw₂, hc⟩ := I.newCell g.mutable hw₁ hv
      refine .declare hk₂ hw₂ (I.bound hw₂ hc) ?_
      exact ihg hw₂ ((hs₁.mono hk₂).defineVariable hc)

/-- **Runs.** A run of any program keeps the invariant, from its start to its end. -/
theorem run_keeps (n : Nat) (p : Program ν) (hw : I.world k w) :
    I.Keeps k (p.runUnder d n) (p.trailUnder d n) w fun k' v _ => I.value k' v := by
  have hbuiltins : I.Scoped k (builtins : RuntimeScope ν) := .defineEach .root Builtin.all
  refine .within (.bind (globals_keeps henclosed n p.globals hw hbuiltins) ?_)
  intro k₁ _ m₁ _ _ hw₁ hs₁
  refine .inWorld ?_
  -- Function definitions add no variables, so all cells in scope are those of the globals.
  have hdefined : I.Scoped k₁ (defineAll m₁.scope p.functions) := hs₁.defineEach p.functions
  refine .bind_still (.ofExcept _) hw₁ (fun e _ => I.faults e) ?_
  intro main _
  exact (I.kept henclosed n).invoke main [] hw₁ hdefined fun v hv => (List.not_mem_nil hv).elim

end Invariant

end Eval

end DynImp
