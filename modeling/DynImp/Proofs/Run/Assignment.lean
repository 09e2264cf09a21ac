import DynImp.Proofs.Eval.Done
import DynImp.Proofs.Run.Sound

/-!
# What an assignment changes

An assignment changes one place, or nothing.  The operands of an assignment may do what they
like, to the very variable or list that is assigned to; what is said here is about the state
that they leave.  Into which list or cell the value goes was settled before.

* **Layer A: places.** What it means that a world differs from another one in one item of
  one list, or in one cell.
* **Layer B: storing** an element, in the state after the operands.
* **Layer C: statements.**
-/

namespace DynImp

namespace Eval

variable {ν : Notes}

/-! ## §1 Places -/

/-- **One item replaced.** The item of a list at a position is the new one, and nothing else in the
world differs. -/
structure World.ItemReplaced (w : World) (id : ListId) (position : Nat) (v : Value) (w' : World) :
    Prop where
  item : (w'.heap.items id)[position]? = some v
  /-- The other positions of the list, those beyond its end included. -/
  others : ∀ p, p ≠ position → (w'.heap.items id)[p]? = (w.heap.items id)[p]?
  lists : ∀ a, a ≠ id → w'.heap.items a = w.heap.items a
  size : w'.heap.lists.size = w.heap.lists.size
  cells : w'.cells = w.cells
  output : w'.output = w.output

/-- **One cell written.** The cell holds the new value, and nothing else in the world differs. -/
structure World.CellWritten (w : World) (location : Nat) (v : Value) (w' : World) : Prop where
  value : w'.cells[location]? = some v
  others : ∀ l, l ≠ location → w'.cells[l]? = w.cells[l]?
  heap : w'.heap = w.heap
  output : w'.output = w.output

theorem World.setItem_itemReplaced {w : World} {id : ListId} {position : Nat} {v : Value}
    (hposition : position < (w.heap.items id).length) :
    w.ItemReplaced id position v (World.setItem id position v w).2 := by
  have hitems : ((World.setItem id position v w).2.heap.items id) =
      (w.heap.items id).set position v := by
    rw [World.setItem, Heap.items_setItem, if_pos rfl]
  refine ⟨?_, ?_, ?_, w.heap.size_setItem id position v, rfl, rfl⟩
  · rw [hitems, List.getElem?_set_self hposition]
  · intro p hp
    rw [hitems, List.getElem?_set_ne hp.symm]
  · intro a ha
    rw [World.setItem, Heap.items_setItem, if_neg ha]

theorem World.writeCell_cellWritten {w : World} {location : Nat} (v : Value)
    (hlocation : location < w.cells.size) :
    w.CellWritten location v (World.writeCell location v w).2 := by
  refine ⟨?_, ?_, rfl, rfl⟩
  · rw [World.writeCell, Array.getElem?_setIfInBounds_self_of_lt hlocation]
  · intro l hl
    rw [World.writeCell, Array.getElem?_setIfInBounds_ne hl.symm]

/-! ## §2 Storing an element -/

/-- A position is an index that is neither negative nor at or beyond the end, however large. -/
theorem position_eq_ok {index : Int} {length : Nat} (h : 0 ≤ index ∧ index < length) :
    position index length = .ok index.toNat := by rw [position, if_pos h]

theorem position_eq_error {index : Int} {length : Nat} (h : ¬ (0 ≤ index ∧ index < length)) :
    position index length = .error (.indexOutOfBounds index length) := by rw [position, if_neg h]

/-- **How storing an element ends**, in a world in which containment is decided. -/
inductive Stores (id : ListId) (index : Int) (v : Value) (w : World) :
    Outcome Fault Unit × World → Prop where
  | replaced {w' : World} (hnot : ¬ w.heap.Contains v id)
      (hindex : 0 ≤ index ∧ index < (w.heap.items id).length)
      (hw' : w.ItemReplaced id index.toNat v w') : Stores id index v w (.done (), w')
  | cyclic (hcontains : w.heap.Contains v id) : Stores id index v w (.failed .cyclicList, w)
  | outOfBounds (hnot : ¬ w.heap.Contains v id)
      (hindex : ¬ (0 ≤ index ∧ index < (w.heap.items id).length)) :
      Stores id index v w (.failed (.indexOutOfBounds index (w.heap.items id).length), w)

theorem World.Sound.stores {w : World} (hw : w.Sound) {v : Value} (hv : w.heap.Holds v)
    (id : ListId) (index : Int) : Stores id index v w (storeAt id index v w) := by
  obtain ⟨found, hanswer, hfound⟩ := hw.acyclic.exists_contains? hw.closed hv id
  cases found with
  | true =>
      have hstore : storeAt id index v w = (.failed .cyclicList, w) := by
        simp only [storeAt, Run.bind_apply, World.ask, hanswer, if_true, Run.fail]
      rw [hstore]
      exact .cyclic (hfound.mp rfl)
  | false =>
      have hnot : ¬ w.heap.Contains v id := fun h => Bool.false_ne_true (hfound.mpr h)
      by_cases hindex : 0 ≤ index ∧ index < (w.heap.items id).length
      · have hstore : storeAt id index v w = World.setItem id index.toNat v w := by
          simp only [storeAt, Run.bind_apply, World.ask, hanswer, Bool.false_eq_true, if_false,
            World.itemsOf, position_eq_ok hindex, Run.ofExcept, Run.pure_apply]
        rw [hstore]
        exact .replaced hnot hindex (World.setItem_itemReplaced (by omega))
      · have hstore : storeAt id index v w =
            (.failed (.indexOutOfBounds index (w.heap.items id).length), w) := by
          simp only [storeAt, Run.bind_apply, World.ask, hanswer, Bool.false_eq_true, if_false,
            World.itemsOf, position_eq_error hindex, Run.ofExcept, Run.fail]
        rw [hstore]
        exact .outOfBounds hnot hindex

/-! ## §3 Statements -/

/-- **Operands of an element assignment.** The list that the name stands for when the statement
starts, the values of the index and of the new element, evaluated in this order, and the world
that they leave. -/
structure ElementOperands (n : Nat) (m : Machine ν) (name : String) (index value : Expr ν)
    (id : ListId) (i : Int) (v : Value) (w : World) : Prop where
  list : ∃ cell, m.scope.findVariable name = some cell ∧
    m.world.cells[cell.location]? = some (.list id)
  operands : ∃ w₁, eval .dynamic n m.scope index m.world = (.done (.integer i), w₁) ∧
    eval .dynamic n m.scope value w₁ = (.done v, w)

theorem lookupCell_of_find {scope : RuntimeScope ν} {name : String} {cell : Cell}
    (hname : scope.findVariable name = some cell) : lookupCell scope name = pure cell := by
  rw [lookupCell, Scope.lookupVariable, hname]
  rfl

/-- After its operands, all that an element assignment does is to store the element. -/
theorem ElementOperands.exec_eq {n : Nat} {m : Machine ν} {name : String} {index value : Expr ν}
    {id : ListId} {i : Int} {v : Value} {w : World}
    (h : ElementOperands n m name index value id i v w) (offset : Nat) (type : ν.type)
    (binding : ν.binding) :
    exec .dynamic (n + 2) (.assign (.element offset type binding name index) value) m =
      (do Machine.inWorld fun _ => storeAt id i v; return .next : Run (Machine ν) Flow)
        ⟨m.scope, w⟩ := by
  obtain ⟨⟨cell, hname, hlist⟩, w₁, hindex, hvalue⟩ := h
  have hread : World.readCell cell.location m.world = (.done (.list id), m.world) := by
    rw [World.readCell, Array.getD_eq_getD_getElem?, hlist]
    rfl
  simp only [exec, assign, Machine.inWorld, Run.bind_apply, lookupCell_of_find hname,
    Run.pure_apply, hread, asList,
    hindex, asInteger, hvalue]

/-- The list of an element assignment is there, so it is as long after the operands as before. -/
theorem ElementOperands.length_eq {n : Nat} {m : Machine ν} (hm : m.Sound) {name : String}
    {index value : Expr ν} {id : ListId} {i : Int} {v : Value} {w : World}
    (h : ElementOperands n m name index value id i v w) :
    (w.heap.items id).length = (m.world.heap.items id).length := by
  obtain ⟨⟨cell, -, hlist⟩, w₁, hindex, hvalue⟩ := h
  obtain ⟨hm₁, hgrows₁, -⟩ := hm.eval hindex
  obtain ⟨-, hgrows₂, -⟩ := hm₁.eval hvalue
  have hid : id < m.world.heap.lists.size :=
    hm.world.cells _ (Array.mem_of_getElem? hlist) id rfl
  exact ((hgrows₁.trans hgrows₂).lists id hid).2

/-- The new element is a value of the world that the operands leave, and that world is sound. -/
theorem ElementOperands.stores {n : Nat} {m : Machine ν} (hm : m.Sound) {name : String}
    {index value : Expr ν} {id : ListId} {i : Int} {v : Value} {w : World}
    (h : ElementOperands n m name index value id i v w) :
    Stores id i v w (storeAt id i v w) := by
  obtain ⟨-, w₁, hindex, hvalue⟩ := h
  obtain ⟨hm₁, -, -⟩ := hm.eval hindex
  obtain ⟨hm₂, -, hholds⟩ := hm₁.eval hvalue
  exact hm₂.world.stores (hholds v rfl) id i

/-- **How an assignment to a variable succeeds.** -/
theorem exec_assign_var_done {n : Nat} {m m' : Machine ν} {offset : Nat} {type : ν.type}
    {binding : ν.binding} {name : String} {value : Expr ν} {flow : Flow}
    (hexec : exec .dynamic n (.assign (.var offset type binding name) value) m =
      (.done flow, m')) :
    ∃ k cell v w, n = k + 2 ∧ m.scope.findVariable name = some cell ∧
      eval .dynamic k m.scope value m.world = (.done v, w) ∧
      m' = ⟨m.scope, (World.writeCell cell.location v w).2⟩ := by
  rcases n with _ | _ | k
  · cases hexec
  · cases hexec
  · rw [exec, Run.bind_eq_done] at hexec
    obtain ⟨_, m₁, hinWorld, hnext⟩ := hexec
    obtain ⟨-, rfl⟩ := Run.pure_eq_done.mp hnext
    obtain ⟨w', hassign, rfl⟩ := Run.inWorld_eq_done.mp hinWorld
    cases hname : m.scope.findVariable name with
    | none =>
        simp only [assign, lookupCell, Scope.lookupVariable, hname] at hassign
        cases hassign
    | some cell =>
        simp only [assign, lookupCell_of_find hname] at hassign
        obtain ⟨_, _, ⟨⟩, hguarded⟩ := Run.bind_eq_done.mp hassign
        split at hguarded
        · obtain ⟨v, w, hvalue, hwrite⟩ := Run.bind_eq_done.mp hguarded
          exact ⟨k, cell, v, w, rfl, rfl, hvalue, by rw [hwrite]⟩
        · cases hguarded

/-- **An assignment changes one place or nothing.** -/
theorem assignment_changes_one_place (n : Nat) {m : Machine ν} (hm : m.Sound) (offset : Nat)
    (type : ν.type) (binding : ν.binding) (name : String) (value : Expr ν) :
    (∀ index id i v w, ElementOperands n m name index value id i v w →
      let s : Stmt ν := .assign (.element offset type binding name index) value
      ((exec .dynamic (n + 2) s m).1 = .done .next ↔
        0 ≤ i ∧ i < (m.world.heap.items id).length ∧ ¬ w.heap.Contains v id) ∧
      ((exec .dynamic (n + 2) s m).1 = .done .next →
        ∃ w', (exec .dynamic (n + 2) s m).2 = ⟨m.scope, w'⟩ ∧ w.ItemReplaced id i.toNat v w') ∧
      ((exec .dynamic (n + 2) s m).1 ≠ .done .next →
        (∃ e, (exec .dynamic (n + 2) s m).1 = .failed e) ∧
          (exec .dynamic (n + 2) s m).2 = ⟨m.scope, w⟩)) ∧
    (∀ k flow m', exec .dynamic k (.assign (.var offset type binding name) value) m =
        (.done flow, m') →
      ∃ j cell v w, k = j + 2 ∧ m.scope.findVariable name = some cell ∧
        eval .dynamic j m.scope value m.world = (.done v, w) ∧ m'.scope = m.scope ∧
        w.CellWritten cell.location v m'.world ∧
        ∀ bound, eval .dynamic (bound + 1) m'.scope (.var offset type binding name) m'.world =
          (.done v, m'.world)) ∧
    (∀ cell, m.scope.findVariable name = some cell → cell.mutable = false →
      let s : Stmt ν := .assign (.var offset type binding name) value
      exec .dynamic (n + 2) s m = (.failed (.immutableAssignment name), m) ∧
        execTrail .dynamic (n + 2) s m =
          [.executed s m (.failed (.immutableAssignment name), m)]) := by
  refine ⟨?element, ?plain, ?immutable⟩
  case element =>
    intro index id i v w h s
    have hexec := h.exec_eq offset type binding
    rw [← h.length_eq hm]
    have hstores := h.stores hm
    simp only [s, hexec, Run.bind_apply, Machine.inWorld]
    generalize storeAt id i v w = result at hstores ⊢
    cases hstores with
    | replaced hnot hindex hw' =>
        refine ⟨iff_of_true rfl ⟨hindex.1, hindex.2, hnot⟩, fun _ => ⟨_, rfl, hw'⟩, ?_⟩
        exact fun hne => (hne rfl).elim
    | cyclic hcontains =>
        refine ⟨iff_of_false (by simp) fun h => h.2.2 hcontains, ?_, fun _ => ⟨⟨_, rfl⟩, rfl⟩⟩
        exact fun h => absurd h (by simp)
    | outOfBounds hnot hindex =>
        refine ⟨iff_of_false (by simp) fun h => hindex ⟨h.1, h.2.1⟩, ?_, fun _ => ⟨⟨_, rfl⟩, rfl⟩⟩
        exact fun h => absurd h (by simp)
  case plain =>
    intro k flow m' hexec
    obtain ⟨j, cell, v, w, rfl, hname, hvalue, rfl⟩ := exec_assign_var_done hexec
    obtain ⟨-, hgrows, -⟩ := hm.eval hvalue
    have hlocation : cell.location < w.cells.size := lt_of_lt_of_le (hm.lt_size hname) hgrows.cells
    have hwritten := World.writeCell_cellWritten v hlocation
    refine ⟨j, cell, v, w, rfl, hname, hvalue, rfl, hwritten, ?_⟩
    intro bound
    have hread : World.readCell cell.location (World.writeCell cell.location v w).2 =
        (.done v, (World.writeCell cell.location v w).2) := by
      rw [World.readCell, Array.getD_eq_getD_getElem?, hwritten.value]
      rfl
    simp only [eval, Run.bind_apply, lookupCell_of_find hname, Run.pure_apply, hread]
  case immutable =>
    intro cell hname himmutable s
    have hexec : exec .dynamic (n + 2) s m = (.failed (.immutableAssignment name), m) := by
      simp only [s, exec, assign, Machine.inWorld, Run.bind_apply, lookupCell_of_find hname,
        Run.pure_apply, himmutable, Bool.false_eq_true, if_false, Run.fail]
    -- Neither the lookup nor the refusal leaves an event, so the statement itself is the only one.
    have hquiet : assignTrail .dynamic (n + 1) m.scope (.var offset type binding name) value
        m.world = [] := by
      simp only [assignTrail, Trail.andThen, Trail.quiet, lookupCell_of_find hname, Run.pure_apply,
        himmutable, Bool.false_eq_true, if_false, List.append_nil]
    refine ⟨hexec, ?_⟩
    simp only [s, execTrail, Trail.closing, Trail.inWorld, hquiet, List.nil_append]
    rw [← hexec]

/-- A function that binds `a` to another list and returns the index 0. -/
def rebinding : Function Bare :=
  ⟨0, (), "rebind", [], none,
    [.assign (.var 0 () () "a") (.list 0 () [.literal 0 () (.integer 9)]),
      .giveBack (.literal 0 () (.integer 0))]⟩

/-- The list `a` and the constant `c`. -/
def listAndConstant : Machine Bare where
  scope := ((builtins.defineFunction "rebind" 0 (.defined rebinding)).defineVariable "a"
    ⟨0, true⟩).defineVariable "c" ⟨1, false⟩
  world := (World.newCell (.integer 4)
    (World.newCell (.list 0) (World.newList [.integer 1, .integer 2] (.start .recording)).2).2).2

theorem listAndConstant_sound : listAndConstant.Sound where
  world := by
    refine (World.Sound.newCell (World.Sound.newCell (World.Sound.newList
      (World.start_sound .recording) ?_) ?_) ?_)
    · simp [Heap.holds_scalar]
    · rintro _ ⟨⟩
      decide
    · exact Heap.holds_scalar _ _
  cells := ((Scope.EachVariable.defineFunction (.defineEach .root Builtin.all)).defineVariable
    (by decide)).defineVariable (by decide)

/-- The index rebinds `a`, and still the list that `a` stood for gets the element.  The constant is
left alone, and so is what would be assigned to it. -/
theorem listAndConstant_assigned :
    let index : Expr Bare := .call 0 () () "rebind" []
    let seven : Expr Bare := .literal 0 () (.integer 7)
    let w := (eval .dynamic 20 listAndConstant.scope index listAndConstant.world).2
    ElementOperands 20 listAndConstant "a" index seven 0 0 (.integer 7) w ∧
      w.cells[0]? = some (.list 1) ∧
      (∃ w', exec .dynamic 22 (.assign (.element 0 () () "a" index) seven) listAndConstant =
        (.done .next, ⟨listAndConstant.scope, w'⟩) ∧ w.ItemReplaced 0 0 (.integer 7) w') ∧
      (∃ m', exec .dynamic 22 (.assign (.var 0 () () "a") seven) listAndConstant =
        (.done .next, m') ∧ listAndConstant.world.CellWritten 0 (.integer 7) m'.world) ∧
      exec .dynamic 22 (.assign (.var 0 () () "c") index) listAndConstant =
        (.failed (.immutableAssignment "c"), listAndConstant) := by
  intro index seven w
  have hoperands : ElementOperands 20 listAndConstant "a" index seven 0 0 (.integer 7) w :=
    ⟨⟨⟨0, true⟩, by decide +kernel, by decide +kernel⟩, w,
      Prod.ext (by decide +kernel) rfl, rfl⟩
  obtain ⟨hiff, hdone, -⟩ := (assignment_changes_one_place 20 listAndConstant_sound 0 () () "a"
    seven).1 index 0 0 (.integer 7) w hoperands
  have hnext := hiff.mpr ⟨by decide, by decide +kernel, Heap.not_contains_scalar _⟩
  obtain ⟨w', hw', hreplaced⟩ := hdone hnext
  have hplain : exec .dynamic 22 (.assign (.var 0 () () "a") seven) listAndConstant =
      (.done .next, (exec .dynamic 22 (.assign (.var 0 () () "a") seven) listAndConstant).2) :=
    Prod.ext (by decide +kernel) rfl
  obtain ⟨j, cell, v, u, hj, hname, hvalue, -, hwritten, -⟩ :=
    (assignment_changes_one_place 20 listAndConstant_sound 0 () () "a" seven).2.1 _ _ _ hplain
  obtain rfl : j = 20 := by omega
  cases hvalue
  obtain rfl : cell = ⟨0, true⟩ := by
    have hcell : listAndConstant.scope.findVariable "a" = some ⟨0, true⟩ := by decide +kernel
    rw [hcell] at hname
    exact (Option.some.inj hname).symm
  refine ⟨hoperands, by decide +kernel, ⟨w', Prod.ext hnext hw', hreplaced⟩,
    ⟨_, hplain, hwritten⟩, ?_⟩
  exact ((assignment_changes_one_place 20 listAndConstant_sound 0 () () "c" index).2.2
    ⟨1, false⟩ (by decide +kernel) rfl).1

end Eval

end DynImp
