import DynImp.Proofs.Eval.Done
import DynImp.Proofs.Run.Alike

/-!
# Code behind a `RETURN`

A `RETURN` leaves the call that owns the body, through all blocks and loops around it.  So
what stands behind it in its block is never executed, and may as well not be there.

* **Layer A: contexts.** A block somewhere in a body, and what is around it.
* **Layer B: coming to a `RETURN`.** Where the execution of a body gets to, statement by
  statement, whatever blocks it goes through.
* **Layer C: calls.**
-/

namespace DynImp

open Eval

variable {ν : Notes}

/-! ## §1 Contexts -/

/-- **Context.** A body with a block missing in it, at any depth.  Each constructor but the first is
a statement around the block with the statements before and after it. -/
inductive BlockContext (ν : Notes) where
  | hole
  | yes (before : List (Stmt ν)) (condition : Expr ν) (inner : BlockContext ν)
      (other after : List (Stmt ν))
  | no (before : List (Stmt ν)) (condition : Expr ν) (other : List (Stmt ν))
      (inner : BlockContext ν) (after : List (Stmt ν))
  /-- The block of a case, between those before and after it. -/
  | case (before : List (Stmt ν)) (subject : Expr ν) (earlier : List (Case ν)) (offset : Nat)
      (value : Option (Expr ν)) (inner : BlockContext ν) (later : List (Case ν))
      (after : List (Stmt ν))
  | loop (before : List (Stmt ν)) (condition : Expr ν) (inner : BlockContext ν)
      (after : List (Stmt ν))

/-- The body with a block put in. -/
def BlockContext.fill : BlockContext ν → List (Stmt ν) → List (Stmt ν)
  | hole, block => block
  | yes before condition inner other after, block =>
    before ++ .choose condition (inner.fill block) other :: after
  | no before condition other inner after, block =>
    before ++ .choose condition other (inner.fill block) :: after
  | case before subject earlier offset value inner later after, block =>
    before ++ .switch subject (earlier ++ .mk offset value (inner.fill block) :: later) :: after
  | loop before condition inner after, block =>
    before ++ .loop condition (inner.fill block) :: after

theorem BlockAlike.append_left (before : List (Stmt ν)) {block block' : List (Stmt ν)}
    (h : BlockAlike Set.univ Set.univ block block') :
    BlockAlike Set.univ Set.univ (before ++ block) (before ++ block') := by
  induction before with
  | nil => exact h
  | cons s before ih => exact .cons s.alike_refl ih

theorem CasesAlike.append_left (earlier : List (Case ν)) {cases cases' : List (Case ν)}
    (h : CasesAlike Set.univ Set.univ cases cases') :
    CasesAlike Set.univ Set.univ (earlier ++ cases) (earlier ++ cases') := by
  induction earlier with
  | nil => exact h
  | cons c earlier ih =>
      obtain ⟨o, value, body⟩ := c
      exact .cons (Expr.someAlike_refl value) (.refl body) ih

/-- **Contexts keep blocks alike.** -/
theorem BlockContext.fill_alike (C : BlockContext ν) {block block' : List (Stmt ν)}
    (h : BlockAlike Set.univ Set.univ block block') :
    BlockAlike Set.univ Set.univ (C.fill block) (C.fill block') := by
  induction C with
  | hole => exact h
  | yes before condition inner other after ih =>
      refine .append_left before (.cons ?_ (.refl after))
      exact .choose condition.alike_refl ih (.refl other)
  | no before condition other inner after ih =>
      refine .append_left before (.cons ?_ (.refl after))
      exact .choose condition.alike_refl (.refl other) ih
  | case before subject earlier offset value inner later after ih =>
      refine .append_left before (.cons ?_ (.refl after))
      refine .switch subject.alike_refl (.append_left earlier ?_)
      exact .cons (Expr.someAlike_refl value) ih (.refl later)
  | loop before condition inner after ih =>
      refine .append_left before (.cons ?_ (.refl after))
      exact .loop condition.alike_refl ih

/-- What stands behind a `RETURN` does not matter, wherever its block is. -/
theorem BlockContext.fill_cut (C : BlockContext ν) (before rest rest' : List (Stmt ν))
    (e : Expr ν) :
    BlockAlike Set.univ Set.univ (C.fill (before ++ .giveBack e :: rest))
      (C.fill (before ++ .giveBack e :: rest')) :=
  C.fill_alike (.append_left before (.cut e.alike_refl))

namespace Eval

/-! ## §2 Coming to a `RETURN` -/

section Comes

variable (d : Discipline ν)

mutual

/-- **A block comes to a `RETURN`**: its execution from a machine gets to the `RETURN` of an
expression, in the machine given last and with the bound given before the expression. -/
inductive BlockComes : Nat → List (Stmt ν) → Machine ν → Nat → Expr ν → Machine ν → Prop where
  | here {n s rest m k e m'} : StmtComes n s m k e m' → BlockComes (n + 1) (s :: rest) m k e m'
  | later {n s rest m m₁ k e m'} : exec d n s m = (.done .next, m₁) →
      BlockComes n rest m₁ k e m' → BlockComes (n + 1) (s :: rest) m k e m'

/-- **A statement comes to a `RETURN`**, itself or one in its blocks. -/
inductive StmtComes : Nat → Stmt ν → Machine ν → Nat → Expr ν → Machine ν → Prop where
  | giveBack {n e m} : StmtComes (n + 1) (.giveBack e) m n e m
  | yes {n condition yes no m w k e m'} :
      evalCondition d n m.scope condition m.world = (.done true, w) →
      BlockComes n yes ⟨m.scope.push, w⟩ k e m' →
      StmtComes (n + 1) (.choose condition yes no) m k e m'
  | no {n condition yes no m w k e m'} :
      evalCondition d n m.scope condition m.world = (.done false, w) →
      BlockComes n no ⟨m.scope.push, w⟩ k e m' →
      StmtComes (n + 1) (.choose condition yes no) m k e m'
  | case {n subject cases m v w₁ body w k e m'} :
      eval d n m.scope subject m.world = (.done v, w₁) →
      select d n m.scope v cases w₁ = (.done (some body), w) →
      BlockComes n body ⟨m.scope.push, w⟩ k e m' →
      StmtComes (n + 1) (.switch subject cases) m k e m'
  | loop {n condition body m k e m'} : LoopComes n condition body m k e m' →
      StmtComes (n + 1) (.loop condition body) m k e m'

/-- **A loop comes to a `RETURN`**, in this round or in a later one. -/
inductive LoopComes : Nat → Expr ν → List (Stmt ν) → Machine ν → Nat → Expr ν → Machine ν → Prop
  where
  | round {n condition body m w k e m'} :
      evalCondition d n m.scope condition m.world = (.done true, w) →
      BlockComes n body ⟨m.scope.push, w⟩ k e m' → LoopComes (n + 1) condition body m k e m'
  | again {n condition body m w inner k e m'} :
      evalCondition d n m.scope condition m.world = (.done true, w) →
      execAll d n body ⟨m.scope.push, w⟩ = (.done .next, inner) →
      LoopComes n condition body ⟨m.scope, inner.world⟩ k e m' →
      LoopComes (n + 1) condition body m k e m'

end

end Comes

variable {d : Discipline ν} {n : Nat} {m : Machine ν} {v : Value} {w : World}

/-- A computation returns a value, and leaves a world. -/
def Returns (x : Run (Machine ν) Flow) (m : Machine ν) (v : Value) (w : World) : Prop :=
  ∃ m', x m = (.done (.returned v), m') ∧ m'.world = w

/-- The value of the `RETURN` that is come to, and the world that it leaves. -/
def ReturnOf (d : Discipline ν) (comes : Nat → Expr ν → Machine ν → Prop) (v : Value) (w : World) :
    Prop :=
  ∃ k e m, comes k e m ∧ eval d k m.scope e m.world = (.done v, w)

/-- What comes to a `RETURN` whenever another execution does returns what that one does. -/
theorem ReturnOf.imp {comes comes' : Nat → Expr ν → Machine ν → Prop}
    (h : ReturnOf d comes v w) (himp : ∀ k e m, comes k e m → comes' k e m) :
    ReturnOf d comes' v w := by
  obtain ⟨k, e, m, hcomes, hvalue⟩ := h
  exact ⟨k, e, m, himp k e m hcomes, hvalue⟩

/-! ### How each kind of statement returns -/

theorem returns_pure {flow : Flow} :
    Returns (pure flow : Run (Machine ν) Flow) m v w ↔ flow = .returned v ∧ m.world = w := by
  simp only [Returns, Run.pure_eq_done]
  constructor
  · rintro ⟨_, ⟨hflow, rfl⟩, hw⟩
    exact ⟨hflow, hw⟩
  · rintro ⟨hflow, hw⟩
    exact ⟨m, ⟨hflow, rfl⟩, hw⟩

theorem returns_bind {α : Type} {x : Run (Machine ν) α} {f : α → Run (Machine ν) Flow} :
    Returns (x >>= f) m v w ↔ ∃ a m₁, x m = (.done a, m₁) ∧ Returns (f a) m₁ v w := by
  simp only [Returns, Run.bind_eq_done]
  constructor
  · rintro ⟨m', ⟨a, m₁, hx, hf⟩, hw⟩
    exact ⟨a, m₁, hx, m', hf, hw⟩
  · rintro ⟨a, m₁, hx, m', hf, hw⟩
    exact ⟨m', ⟨a, m₁, hx, hf⟩, hw⟩

/-- After a computation that acts on the world alone. -/
theorem returns_inWorld_bind {α : Type} {x : RuntimeScope ν → Run World α}
    {f : α → Run (Machine ν) Flow} :
    Returns (Machine.inWorld x >>= f) m v w ↔
      ∃ a w₁, x m.scope m.world = (.done a, w₁) ∧ Returns (f a) ⟨m.scope, w₁⟩ v w := by
  rw [returns_bind]
  constructor
  · rintro ⟨a, m₁, hx, hf⟩
    obtain ⟨w₁, hvalue, rfl⟩ := Run.inWorld_eq_done.mp hx
    exact ⟨a, w₁, hvalue, hf⟩
  · rintro ⟨a, w₁, hx, hf⟩
    exact ⟨a, _, Run.inWorld_eq_done.mpr ⟨w₁, hx, rfl⟩, hf⟩

theorem returns_inBlock {x : Run (Machine ν) Flow} :
    Returns (Machine.inBlock x) m v w ↔ Returns x ⟨m.scope.push, m.world⟩ v w := by
  simp only [Returns, Run.inBlock_eq_done]
  constructor
  · rintro ⟨_, ⟨inner, hx, rfl⟩, hw⟩
    exact ⟨inner, hx, hw⟩
  · rintro ⟨inner, hx, hw⟩
    exact ⟨_, ⟨inner, hx, rfl⟩, hw⟩

theorem returns_giveBack {e : Expr ν} :
    Returns (exec d (n + 1) (.giveBack e)) m v w ↔
      eval d n m.scope e m.world = (.done v, w) := by
  rw [exec, returns_inWorld_bind]
  constructor
  · rintro ⟨u, w₁, hvalue, hreturned⟩
    obtain ⟨⟨⟩, rfl⟩ := returns_pure.mp hreturned
    exact hvalue
  · intro hvalue
    exact ⟨v, w, hvalue, returns_pure.mpr ⟨rfl, rfl⟩⟩

theorem returns_choose {condition : Expr ν} {yes no : List (Stmt ν)} :
    Returns (exec d (n + 1) (.choose condition yes no)) m v w ↔
      ∃ b w₁, evalCondition d n m.scope condition m.world = (.done b, w₁) ∧
        Returns (execAll d n (if b then yes else no)) ⟨m.scope.push, w₁⟩ v w := by
  rw [exec, returns_inWorld_bind]
  refine exists_congr fun b => exists_congr fun w₁ => and_congr_right fun _ => ?_
  cases b <;> exact returns_inBlock

theorem returns_switch {subject : Expr ν} {cases : List (Case ν)} :
    Returns (exec d (n + 1) (.switch subject cases)) m v w ↔
      ∃ u w₁ body w₂, eval d n m.scope subject m.world = (.done u, w₁) ∧
        select d n m.scope u cases w₁ = (.done (some body), w₂) ∧
        Returns (execAll d n body) ⟨m.scope.push, w₂⟩ v w := by
  rw [exec, returns_inWorld_bind]
  constructor
  · rintro ⟨body, w₂, hselect, hbody⟩
    obtain ⟨u, w₁, hsubject, hselect⟩ := Run.bind_eq_done.mp hselect
    cases body with
    | none =>
        -- No case applies, and the statement is left for the next one.
        obtain ⟨⟨⟩, -⟩ := returns_pure.mp hbody
    | some body => exact ⟨u, w₁, body, w₂, hsubject, hselect, returns_inBlock.mp hbody⟩
  · rintro ⟨u, w₁, body, w₂, hsubject, hselect, hbody⟩
    exact ⟨some body, w₂, Run.bind_eq_done.mpr ⟨u, w₁, hsubject, hselect⟩,
      returns_inBlock.mpr hbody⟩

/-- What a block or a round of a loop does after a part of it: it goes on, unless that returned. -/
theorem returns_goOn {x next : Run (Machine ν) Flow} :
    Returns (do match ← x with | .next => next | .returned v => return .returned v) m v w ↔
      Returns x m v w ∨ ∃ m₁, x m = (.done .next, m₁) ∧ Returns next m₁ v w := by
  rw [returns_bind]
  constructor
  · rintro ⟨flow, m₁, hx, hnext⟩
    cases flow with
    | next => exact .inr ⟨m₁, hx, hnext⟩
    | returned u =>
        obtain ⟨⟨⟩, hw⟩ := returns_pure.mp hnext
        exact .inl ⟨m₁, hx, hw⟩
  · rintro (⟨m₁, hx, hw⟩ | ⟨m₁, hx, hnext⟩)
    · exact ⟨_, m₁, hx, returns_pure.mpr ⟨rfl, hw⟩⟩
    · exact ⟨_, m₁, hx, hnext⟩

theorem returns_cons {s : Stmt ν} {rest : List (Stmt ν)} :
    Returns (execAll d (n + 1) (s :: rest)) m v w ↔ Returns (exec d n s) m v w ∨
      ∃ m₁, exec d n s m = (.done .next, m₁) ∧ Returns (execAll d n rest) m₁ v w := by
  rw [execAll]
  exact returns_goOn

theorem returns_execLoop {condition : Expr ν} {body : List (Stmt ν)} :
    Returns (execLoop d (n + 1) condition body) m v w ↔
      ∃ w₁, evalCondition d n m.scope condition m.world = (.done true, w₁) ∧
        (Returns (execAll d n body) ⟨m.scope.push, w₁⟩ v w ∨
          ∃ inner, execAll d n body ⟨m.scope.push, w₁⟩ = (.done .next, inner) ∧
            Returns (execLoop d n condition body) ⟨m.scope, inner.world⟩ v w) := by
  rw [execLoop, returns_inWorld_bind]
  constructor
  · rintro ⟨b, w₁, hcondition, hround⟩
    cases b with
    | false => obtain ⟨⟨⟩, -⟩ := returns_pure.mp hround
    | true =>
        refine ⟨w₁, hcondition, ?_⟩
        rcases returns_goOn.mp hround with hbody | ⟨m₁, hbody, hagain⟩
        · exact .inl (returns_inBlock.mp hbody)
        · obtain ⟨inner, hinner, rfl⟩ := Run.inBlock_eq_done.mp hbody
          exact .inr ⟨inner, hinner, hagain⟩
  · rintro ⟨w₁, hcondition, hround⟩
    refine ⟨true, w₁, hcondition, returns_goOn.mpr ?_⟩
    rcases hround with hbody | ⟨inner, hbody, hagain⟩
    · exact .inl (returns_inBlock.mpr hbody)
    · exact .inr ⟨_, Run.inBlock_eq_done.mpr ⟨inner, hbody, rfl⟩, hagain⟩

/-! ### Returning is coming to a `RETURN` -/

/-- **All that returns has come to a `RETURN`**, and returns its value. -/
structure ReturnsRight (d : Discipline ν) (n : Nat) : Prop where
  block : ∀ body m v w, Returns (execAll d n body) m v w ↔ ReturnOf d (BlockComes d n body m) v w
  stmt : ∀ s m v w, Returns (exec d n s) m v w ↔ ReturnOf d (StmtComes d n s m) v w
  loop : ∀ condition body m v w, Returns (execLoop d n condition body) m v w ↔
    ReturnOf d (LoopComes d n condition body m) v w

section Steps

variable (ih : ReturnsRight d n)

include ih

theorem block_returnsRight (body : List (Stmt ν)) (m : Machine ν) (v : Value) (w : World) :
    Returns (execAll d (n + 1) body) m v w ↔ ReturnOf d (BlockComes d (n + 1) body m) v w := by
  cases body with
  | nil =>
      rw [execAll, returns_pure]
      refine iff_of_false (by simp) ?_
      rintro ⟨k, e, m', ⟨⟩, -⟩
  | cons s rest =>
      rw [returns_cons]
      constructor
      · rintro (hs | ⟨m₁, hs, hrest⟩)
        · exact ((ih.stmt _ _ _ _).mp hs).imp fun _ _ _ => .here
        · exact ((ih.block _ _ _ _).mp hrest).imp fun _ _ _ => .later hs
      · rintro ⟨k, e, m', hcomes, hvalue⟩
        cases hcomes with
        | here hcomes => exact .inl ((ih.stmt _ _ _ _).mpr ⟨k, e, m', hcomes, hvalue⟩)
        | later hs hcomes =>
            exact .inr ⟨_, hs, (ih.block _ _ _ _).mpr ⟨k, e, m', hcomes, hvalue⟩⟩

theorem stmt_returnsRight (s : Stmt ν) (m : Machine ν) (v : Value) (w : World) :
    Returns (exec d (n + 1) s) m v w ↔ ReturnOf d (StmtComes d (n + 1) s m) v w := by
  cases s with
  | giveBack e =>
      rw [returns_giveBack]
      constructor
      · intro hvalue
        exact ⟨n, e, m, .giveBack, hvalue⟩
      · rintro ⟨_, _, _, ⟨⟩, hvalue⟩
        exact hvalue
  | choose condition yes no =>
      rw [returns_choose]
      constructor
      · rintro ⟨b, w₁, hcondition, hbody⟩
        have hreturn := (ih.block _ _ _ _).mp hbody
        cases b with
        | true => exact hreturn.imp fun _ _ _ => .yes hcondition
        | false => exact hreturn.imp fun _ _ _ => .no hcondition
      · rintro ⟨k, e, m', hcomes, hvalue⟩
        cases hcomes with
        | yes hcondition hcomes =>
            exact ⟨true, _, hcondition, (ih.block _ _ _ _).mpr ⟨k, e, m', hcomes, hvalue⟩⟩
        | no hcondition hcomes =>
            exact ⟨false, _, hcondition, (ih.block _ _ _ _).mpr ⟨k, e, m', hcomes, hvalue⟩⟩
  | switch subject cases =>
      rw [returns_switch]
      constructor
      · rintro ⟨u, w₁, body, w₂, hsubject, hselect, hbody⟩
        exact ((ih.block _ _ _ _).mp hbody).imp fun _ _ _ => .case hsubject hselect
      · rintro ⟨k, e, m', hcomes, hvalue⟩
        cases hcomes with
        | case hsubject hselect hcomes =>
            exact ⟨_, _, _, _, hsubject, hselect,
              (ih.block _ _ _ _).mpr ⟨k, e, m', hcomes, hvalue⟩⟩
  | loop condition body =>
      rw [exec, ih.loop]
      constructor
      · exact fun h => h.imp fun _ _ _ => .loop
      · rintro ⟨k, e, m', hcomes, hvalue⟩
        cases hcomes with
        | loop hcomes => exact ⟨k, e, m', hcomes, hvalue⟩
  | perform | assign =>
      refine iff_of_false ?_ (by rintro ⟨_, _, _, ⟨⟩, -⟩)
      rw [exec, returns_inWorld_bind]
      rintro ⟨_, _, _, hnext⟩
      obtain ⟨⟨⟩, -⟩ := returns_pure.mp hnext
  | declare =>
      refine iff_of_false ?_ (by rintro ⟨_, _, _, ⟨⟩, -⟩)
      rw [exec, returns_inWorld_bind]
      rintro ⟨_, _, _, hdeclare⟩
      obtain ⟨_, _, _, hnext⟩ := returns_bind.mp hdeclare
      obtain ⟨⟨⟩, -⟩ := returns_pure.mp hnext

theorem loop_returnsRight (condition : Expr ν) (body : List (Stmt ν)) (m : Machine ν) (v : Value)
    (w : World) : Returns (execLoop d (n + 1) condition body) m v w ↔
      ReturnOf d (LoopComes d (n + 1) condition body m) v w := by
  rw [returns_execLoop]
  constructor
  · rintro ⟨w₁, hcondition, hbody | ⟨inner, hbody, hagain⟩⟩
    · exact ((ih.block _ _ _ _).mp hbody).imp fun _ _ _ => .round hcondition
    · exact ((ih.loop _ _ _ _ _).mp hagain).imp fun _ _ _ => .again hcondition hbody
  · rintro ⟨k, e, m', hcomes, hvalue⟩
    cases hcomes with
    | round hcondition hcomes =>
        exact ⟨_, hcondition, .inl ((ih.block _ _ _ _).mpr ⟨k, e, m', hcomes, hvalue⟩)⟩
    | again hcondition hbody hcomes =>
        exact ⟨_, hcondition, .inr ⟨_, hbody, (ih.loop _ _ _ _ _).mpr ⟨k, e, m', hcomes, hvalue⟩⟩⟩

end Steps

/-- **Every bound.** Blocks, statements and loops return the value of the `RETURN` that they come
to, and return nothing else. -/
theorem returnsRight (d : Discipline ν) (n : Nat) : ReturnsRight d n := by
  induction n with
  | zero =>
      -- At the bound nothing is executed.
      constructor <;> intros <;> exact iff_of_false (by rintro ⟨_, ⟨⟩, -⟩)
        (by rintro ⟨_, _, _, ⟨⟩, -⟩)
  | succ n ih => exact ⟨block_returnsRight ih, stmt_returnsRight ih, loop_returnsRight ih⟩

/-! ## §3 Calls -/

/-- The machine in which a body starts: a new frame with the arguments. -/
def Function.entered (f : Function ν) (s : RuntimeScope ν) (args : List Value) (w : World) :
    Machine ν :=
  (declareParams f.params args ⟨s.push, w⟩).2

theorem declareParams_done (params : List Parameter) (args : List Value) (m : Machine ν) :
    (declareParams params args m).1 = .done () := by
  induction params generalizing args m with
  | nil => cases args <;> rfl
  | cons p params ih =>
      cases args with
      | nil => rfl
      | cons v args => exact ih args _

/-- **Calls** yield what their bodies return, and nothing if the end of the body is reached. -/
theorem invoke_done_iff {f : Function ν} {s : RuntimeScope ν} {args : List Value} {w w' : World} :
    invoke d (n + 1) s (.defined f) args w = (.done v, w') ↔
      ReturnOf d (BlockComes d n f.body (Function.entered f (d.home s) args w)) v w' ∨
        v = .nil ∧ ∃ m, execAll d n f.body (Function.entered f (d.home s) args w) =
          (.done .next, m) ∧ m.world = w' := by
  have hentered : declareParams f.params args ⟨(d.home s).push, w⟩ =
      (.done (), Function.entered f (d.home s) args w) :=
    Prod.ext (declareParams_done _ _ _) rfl
  have hreturn := (returnsRight d n).block f.body (Function.entered f (d.home s) args w) v w'
  rw [← hreturn, invoke, Run.bind_eq_done]
  constructor
  · rintro ⟨flow, w₁, hwithin, hvalue⟩
    obtain ⟨rfl, rfl⟩ := Run.pure_eq_done.mp hvalue
    obtain ⟨m, hbody, rfl⟩ := Run.within_eq_done.mp hwithin
    rw [Run.bind_apply, hentered] at hbody
    cases flow with
    | next => exact .inr ⟨rfl, m, hbody, rfl⟩
    | returned v => exact .inl ⟨m, hbody, rfl⟩
  · rintro (⟨m, hbody, rfl⟩ | ⟨rfl, m, hbody, rfl⟩)
    · refine ⟨.returned v, _, Run.within_eq_done.mpr ⟨m, ?_, rfl⟩, rfl⟩
      rw [Run.bind_apply, hentered]
      exact hbody
    · refine ⟨.next, _, Run.within_eq_done.mpr ⟨m, ?_, rfl⟩, rfl⟩
      rw [Run.bind_apply, hentered]
      exact hbody

end Eval

/-- **Code behind a `RETURN` is dead.** -/
theorem code_behind_return_dead (C : BlockContext ν) (before rest : List (Stmt ν)) (e : Expr ν)
    (f : Function ν) :
    let whole : Function ν := { f with body := C.fill (before ++ .giveBack e :: rest) }
    let cut : Function ν := { f with body := C.fill (before ++ [.giveBack e]) }
    (∀ globals earlier later n, (⟨globals, earlier ++ cut :: later⟩ : Program ν).run n =
      (⟨globals, earlier ++ whole :: later⟩ : Program ν).run n) ∧
    (∀ s s' : RuntimeScope ν, ScopesAlike s s' → ∀ args, args.length = f.arity → ∀ n w,
      invoke .dynamic n s' (.defined cut) args w = invoke .dynamic n s (.defined whole) args w) ∧
    (∀ n (s : RuntimeScope ν) offset type callee name (es : List (Expr ν)) (g : Function ν)
      args w₀ w v w',
      s.lookupFunction name es.length = .ok (.defined g) →
      evalAll .dynamic (n + 1) s es w₀ = (.done args, w) →
      ReturnOf .dynamic (BlockComes .dynamic n g.body (Function.entered g s args w)) v w' →
      eval .dynamic (n + 2) s (.call offset type callee name es) w₀ = (.done v, w')) := by
  intro whole cut
  have hcut : whole.Alike cut := ⟨rfl, rfl, C.fill_cut before rest [] e⟩
  refine ⟨?program, ?call, ?value⟩
  case program =>
    intro globals earlier later n
    have halike : (⟨globals, earlier ++ whole :: later⟩ : Program ν).Alike
        (⟨globals, earlier ++ cut :: later⟩ : Program ν) := by
      refine ⟨.refl globals, List.rel_append ?_ (.cons hcut ?_)⟩
      · exact List.forall₂_same.mpr fun g _ => g.alike_refl
      · exact List.forall₂_same.mpr fun g _ => g.alike_refl
    exact (halike.run_eq n).symm
  case call =>
    intro s s' hs args hargs n w
    exact (hs.invoke_eq hcut hargs n w).symm
  case value =>
    intro n s offset type callee name es g args w₀ w v w' hname hargs hreturn
    have hinvoke : invoke .dynamic (n + 1) s (.defined g) args w = (.done v, w') :=
      invoke_done_iff.mpr (.inl hreturn)
    have hresolve : (Discipline.dynamic : Discipline ν).resolve s callee name es.length =
        .ok (.defined g) := hname
    simp only [eval, hresolve, Except.mapError, Run.ofExcept, Run.bind_apply, Run.pure_apply,
      hargs, hinvoke]

/-- A body with a loop in a case in a branch. -/
def loopInCaseInBranch : BlockContext Bare :=
  .yes [] (.literal 0 () (.boolean true))
    (.case [] (.literal 0 () (.integer 1)) [] 0 (some (.literal 0 () (.integer 1)))
      (.loop [] (.literal 0 () (.boolean true)) .hole []) [] [])
    [] [.giveBack (.literal 0 () (.integer 8))]

/-- `print(i)` as a statement. -/
def printing (i : Int) : Stmt Bare := .perform (.call 0 () () "print" [.literal 0 () (.integer i)])

/-- A function that prints 1 and returns 7 from inside a loop, with more behind the `RETURN`. -/
def leavingLoop : Function Bare :=
  ⟨0, (), "f", [], none, loopInCaseInBranch.fill
    ([printing 1] ++ .giveBack (.literal 0 () (.integer 7)) :: [printing 2])⟩

theorem leavingLoop_cut :
    let cut : Function Bare := { leavingLoop with
      body := loopInCaseInBranch.fill ([printing 1] ++ [.giveBack (.literal 0 () (.integer 7))]) }
    let s : RuntimeScope Bare := builtins.defineFunction "f" 0 (.defined leavingLoop)
    let s' : RuntimeScope Bare := builtins.defineFunction "f" 0 (.defined cut)
    let w : World := .start .recording
    ScopesAlike s s' ∧ leavingLoop.arity = 0 ∧
      invoke .dynamic 20 s' (.defined cut) [] w =
        invoke .dynamic 20 s (.defined leavingLoop) [] w ∧
      ∃ w', eval .dynamic 22 s (.call 0 () () "f" []) w = (.done (.integer 7), w') ∧
        w'.output.written = "1\n" := by
  intro cut s s' w
  have hcut : leavingLoop.Alike cut :=
    ⟨rfl, rfl, loopInCaseInBranch.fill_cut [printing 1] [printing 2] [] _⟩
  have hs : ScopesAlike s s' := ScopesAlike.builtins.defineFunction "f" hcut.callable
  obtain ⟨-, hinvoke, hvalue⟩ := code_behind_return_dead loopInCaseInBranch [printing 1]
    [printing 2] (.literal 0 () (.integer 7)) leavingLoop
  refine ⟨hs, rfl, hinvoke s s' hs [] rfl 20 w,
    (eval .dynamic 22 s (.call 0 () () "f" []) w).2, ?_, by decide +kernel⟩
  -- The body ends with the value, so it has come to the `RETURN` in the loop.
  have hreturns : Returns (execAll .dynamic 20 leavingLoop.body)
      (Function.entered leavingLoop s [] w) (.integer 7)
      (eval .dynamic 22 s (.call 0 () () "f" []) w).2 :=
    ⟨_, Prod.ext (by decide +kernel) rfl, rfl⟩
  exact hvalue 20 s 0 () () "f" [] leavingLoop [] w w _ _ (by rfl) (by rfl)
    (((returnsRight .dynamic 20).block _ _ _ _).mp hreturns)

end DynImp
