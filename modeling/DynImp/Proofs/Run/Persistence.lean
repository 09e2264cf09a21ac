import DynImp.Proofs.Run.Acyclic
import DynImp.Proofs.Run.Compositional
import Mathlib.Data.List.Chain

/-!
# What a run cannot change

Lists and cells are never given up, a list has as many items at the end of a run as when it
was made, and the cell of a constant holds the value it was made with.  The items of a list
may change, also of one that a constant holds: what stays is which list it is.

* **Layer A: growth.** No access to the world takes anything away or changes a length, so
  along the states of a run, in the order of time, there is only ever more.
* **Layer B: constants.** Only cells of variables that may change are written to.
* **Layer C: runs.**
-/

namespace DynImp

namespace Eval

/-! ## §1 Growth -/

/-- **Growth.** All lists of a world are there in the other one, with as many items, and so are all
its cells. -/
structure World.GrowsTo (w w' : World) : Prop where
  lists : ∀ id < w.heap.lists.size,
    id < w'.heap.lists.size ∧ (w'.heap.items id).length = (w.heap.items id).length
  cells : w.cells.size ≤ w'.cells.size

namespace World.GrowsTo

theorem refl (w : World) : w.GrowsTo w := ⟨fun _ hid => ⟨hid, rfl⟩, le_refl _⟩

theorem trans {w w' w'' : World} (h : w.GrowsTo w') (h' : w'.GrowsTo w'') : w.GrowsTo w'' where
  lists id hid := by
    obtain ⟨hid', hlength⟩ := h.lists id hid
    obtain ⟨hid'', hlength'⟩ := h'.lists id hid'
    exact ⟨hid'', hlength'.trans hlength⟩
  cells := le_trans h.cells h'.cells

instance : Trans World.GrowsTo World.GrowsTo World.GrowsTo := ⟨trans⟩

/-- A world with the same lists. -/
theorem of_heap_eq {w w' : World} (hheap : w'.heap = w.heap)
    (hcells : w.cells.size ≤ w'.cells.size) : w.GrowsTo w' := by
  refine ⟨fun id hid => ?_, hcells⟩
  rw [hheap]
  exact ⟨hid, rfl⟩

theorem newList (w : World) (items : List Value) : w.GrowsTo (World.newList items w).2 where
  lists id hid := by
    refine ⟨?_, ?_⟩
    · rw [World.newList, Heap.size_alloc]
      exact Nat.lt_succ_of_lt hid
    · rw [World.newList, Heap.items_alloc_of_lt hid]
  cells := le_refl _

theorem setItem (w : World) (id : ListId) (position : Nat) (v : Value) :
    w.GrowsTo (World.setItem id position v w).2 where
  lists other hother := by
    refine ⟨?_, ?_⟩
    · rw [World.setItem, Heap.size_setItem]
      exact hother
    · rw [World.setItem, Heap.items_setItem]
      split
      · next h => rw [List.length_set, h]
      · rfl
  cells := le_refl _

theorem newCell (w : World) (v : Value) : w.GrowsTo (World.newCell v w).2 :=
  .of_heap_eq rfl (by simp [World.newCell])

theorem writeCell (w : World) (cell : Nat) (v : Value) : w.GrowsTo (World.writeCell cell v w).2 :=
  .of_heap_eq rfl (by simp [World.writeCell])

theorem emit (w : World) (text : String) : w.GrowsTo (World.emit text w).2 :=
  .of_heap_eq (World.emit_heap text w) (by rw [World.emit_cells])

end World.GrowsTo

variable {ν : Notes} {σ α : Type}

/-- **Timeline** of a computation: the world at the start, at every event, and at the end. -/
def timeline [HasWorld σ] (x : Run σ α) (t : Trail σ ν) (s : σ) : List World :=
  HasWorld.world s :: (t s).map Event.now ++ [HasWorld.world (x s).2]

/-- From each point of a computation to all later ones the world grows, and so it does in the
course of each event. -/
structure Growing [HasWorld σ] (x : Run σ α) (t : Trail σ ν) (s : σ) : Prop where
  points : (timeline x t s).Pairwise World.GrowsTo
  events : ∀ ev ∈ t s, ∀ w ∈ ev.worlds, w.GrowsTo ev.now

namespace Growing

variable [HasWorld σ] {x : Run σ α} {t : Trail σ ν} {s : σ}

/-- A computation in which nothing happens. -/
theorem quiet (h : (HasWorld.world s).GrowsTo (HasWorld.world (x s).2)) :
    Growing x (Trail.quiet : Trail σ ν) s where
  points := List.pairwise_pair.mpr h
  events _ h := (List.not_mem_nil h).elim

/-- The world grows from the start to the end. -/
theorem ends (h : Growing x t s) : (HasWorld.world s).GrowsTo (HasWorld.world (x s).2) := by
  have hpoints := h.points
  rw [timeline, List.cons_append, List.pairwise_cons] at hpoints
  exact hpoints.1 _ (List.mem_append_right _ List.mem_cons_self)

theorem bind {β : Type} {f : α → Run σ β} {t' : α → Trail σ ν} (hx : Growing x t s)
    (hf : ∀ a s', Growing (f a) (t' a) s') : Growing (x >>= f) (Trail.andThen x t t') s := by
  obtain ⟨hpoints, hevents⟩ := hx
  obtain ⟨outcome, s', hxs⟩ : ∃ outcome s', x s = (outcome, s') := ⟨_, _, rfl⟩
  cases outcome with
  | done a =>
      obtain ⟨hpoints', hevents'⟩ := hf a s'
      rw [timeline, hxs] at hpoints
      rw [timeline] at hpoints'
      constructor
      · -- The world in the middle ends the first timeline and starts the second.
        have hjoined := List.isChain_split.mpr
          ⟨List.isChain_iff_pairwise.mpr hpoints, List.isChain_iff_pairwise.mpr hpoints'⟩
        refine (List.isChain_iff_pairwise.mp hjoined).sublist ?_
        simp only [timeline, Trail.andThen, Run.bind_apply, hxs, List.map_append, List.cons_append,
          List.append_assoc]
        exact ((List.sublist_cons_self _ _).append_left _).cons_cons _
      · intro ev hev
        simp only [Trail.andThen, hxs] at hev
        rcases List.mem_append.mp hev with hev | hev
        · exact hevents ev hev
        · exact hevents' ev hev
  | failed | unfinished =>
      -- The second part does not begin.
      simp only [timeline, hxs] at hpoints
      constructor
      · simpa only [timeline, Trail.andThen, Run.bind_apply, hxs, List.append_nil] using hpoints
      · simpa only [Trail.andThen, hxs, List.append_nil] using hevents

theorem opening {event : σ → Event ν} (hworlds : (event s).worlds = [HasWorld.world s])
    (hnow : (event s).now = HasWorld.world s) (h : Growing x t s) :
    Growing x (Trail.opening event t) s where
  points := by
    have hpoints := h.points
    rw [timeline, List.cons_append, List.pairwise_cons] at hpoints
    simp only [timeline, Trail.opening, List.map_cons, hnow, List.cons_append,
      List.pairwise_cons, List.forall_mem_cons]
    exact ⟨⟨.refl _, hpoints.1⟩, hpoints⟩
  events := by
    refine List.forall_mem_cons.mpr ⟨?_, h.events⟩
    rw [hworlds, hnow, List.forall_mem_singleton]
    exact .refl _

theorem closing {event : σ → Event ν}
    (hworlds : (event s).worlds = [HasWorld.world s, HasWorld.world (x s).2])
    (hnow : (event s).now = HasWorld.world (x s).2) (h : Growing x t s) :
    Growing x (Trail.closing t event) s where
  points := by
    have hpoints := h.points
    rw [timeline] at hpoints
    rw [timeline, Trail.closing, List.map_append, List.map_singleton, hnow, ← List.cons_append,
      List.pairwise_append]
    refine ⟨hpoints, List.pairwise_singleton _ _, ?_⟩
    -- What leads to the end leads to it once more.
    intro w hw w' hw'
    obtain rfl := List.mem_singleton.mp hw'
    rcases List.mem_append.mp hw with hw | hw
    · exact (List.pairwise_append.mp hpoints).2.2 w hw _ List.mem_cons_self
    · obtain rfl := List.mem_singleton.mp hw
      exact .refl _
  events := by
    intro ev hev
    rcases List.mem_append.mp hev with hev | hev
    · exact h.events ev hev
    · obtain rfl := List.mem_singleton.mp hev
      rw [hworlds, hnow, List.forall_mem_cons, List.forall_mem_singleton]
      exact ⟨h.ends, .refl _⟩

end Growing

/-- **Growth is compositional.** -/
def growing (ν : Notes) : Compositional ν where
  holds x t := ∀ s, Growing x t s
  pure _ _ := .quiet (.refl _)
  fail _ _ := .quiet (.refl _)
  unfinished _ := .quiet (.refl _)
  bind hx hf s := (hx s).bind hf
  opening hworlds hnow h s := (h s).opening (hworlds s) (hnow s)
  closing hworlds hnow h s := (h s).closing (hworlds s) (hnow s)
  ask question w := by
    refine .quiet ?_
    rw [Run.Still.ask question w]
    exact .refl _
  itemsOf _ _ := .quiet (.refl _)
  readCell _ _ := .quiet (.refl _)
  newList items w := .quiet (.newList w items)
  setItem id position v w := .quiet (.setItem w id position v)
  writeCell cell v w := .quiet (.writeCell w cell v)
  emit _ w := .quiet (.emit w _)
  declare _ _ v m := .quiet (.newCell m.world v)
  inWorld h m := ⟨(h m.scope m.world).points, (h m.scope m.world).events⟩
  inBlock h m := ⟨(h ⟨m.scope.push, m.world⟩).points, (h ⟨m.scope.push, m.world⟩).events⟩
  within scope h w := ⟨(h ⟨scope, w⟩).points, (h ⟨scope, w⟩).events⟩

/-! ## §2 Constants -/

/-- **What cells are known to hold**: by their places, the value of a constant, and nothing of a
variable that may change.  Knowing more is to know of more cells. -/
structure Constants where
  cells : List (Option Value)

namespace Constants

instance : Preorder Constants where
  le K K' := K.cells <+: K'.cells
  le_refl K := List.prefix_refl K.cells
  le_trans _ _ _ := List.IsPrefix.trans

/-- A world is as known. -/
structure Fit (K : Constants) (w : World) : Prop where
  size : K.cells.length = w.cells.size
  held : ∀ (i : Nat) (v : Value), K.cells[i]? = some (some v) → w.cells[i]? = some v

/-- A cell is known, and its value if and only if it must not be assigned to. -/
def Knows (K : Constants) (c : Cell) : Prop :=
  ∃ known, K.cells[c.location]? = some known ∧ (known = none ↔ c.mutable = true)

/-- One more cell. -/
def next (K : Constants) (mutable : Bool) (v : Value) : Constants :=
  ⟨K.cells ++ [if mutable then none else some v]⟩

variable {K K' : Constants} {w : World} {c : Cell} {v : Value}

theorem le_next (K : Constants) (mutable : Bool) (v : Value) : K ≤ K.next mutable v :=
  List.prefix_append _ _

theorem known_mono (hle : K ≤ K') {i : Nat} {known : Option Value}
    (h : K.cells[i]? = some known) : K'.cells[i]? = some known := by
  obtain ⟨rest, hrest⟩ := hle
  obtain ⟨hi, -⟩ := List.getElem?_eq_some_iff.mp h
  rw [← hrest, List.getElem?_append_left hi, h]

theorem Knows.mono (hle : K ≤ K') (h : K.Knows c) : K'.Knows c := by
  obtain ⟨known, hget, hknown⟩ := h
  exact ⟨known, known_mono hle hget, hknown⟩

theorem Knows.held (h : K.Knows c) (hmutable : c.mutable = false) :
    ∃ v, K.cells[c.location]? = some (some v) := by
  obtain ⟨known, hget, hknown⟩ := h
  -- Nothing is known only of cells that may be assigned to.
  cases known with
  | none => rw [hknown.mp rfl] at hmutable; cases hmutable
  | some v => exact ⟨v, hget⟩

namespace Fit

/-- What does not touch the cells. -/
theorem of_cells_eq {w' : World} (h : K.Fit w) (hcells : w'.cells = w.cells) : K.Fit w' where
  size := by rw [hcells, h.size]
  held := by rw [hcells]; exact h.held

theorem newCell (h : K.Fit w) (mutable : Bool) (v : Value) :
    (K.next mutable v).Fit (World.newCell v w).2 where
  size := by simp [next, World.newCell, h.size]
  held i u hu := by
    rw [World.newCell, Array.getElem?_push]
    rw [next, List.getElem?_append, h.size] at hu
    split at hu
    · next hlt =>
        rw [if_neg (Nat.ne_of_lt hlt)]
        exact h.held i u hu
    · -- Nothing but the new cell is left.
      rw [List.getElem?_singleton] at hu
      split at hu
      · next hge hzero =>
          rw [if_pos (by omega)]
          split at hu <;> cases hu
          rfl
      · cases hu

theorem knows_newCell (h : K.Fit w) (mutable : Bool) (v : Value) :
    (K.next mutable v).Knows ⟨w.cells.size, mutable⟩ := by
  refine ⟨if mutable then none else some v, ?_, ?_⟩
  · rw [next, ← h.size, List.getElem?_concat_length]
  · cases mutable <;> simp

theorem writeCell (h : K.Fit w) (hc : K.Knows c) (hmutable : c.mutable = true) :
    K.Fit (World.writeCell c.location v w).2 where
  size := by simp [World.writeCell, h.size]
  held i u hu := by
    obtain ⟨known, hget, hknown⟩ := hc
    -- A constant is never where a variable is that may change.
    have hne : c.location ≠ i := by
      rintro rfl
      rw [hknown.mpr hmutable] at hget
      rw [hget] at hu
      cases hu
    rw [World.writeCell, Array.getElem?_setIfInBounds_ne hne]
    exact h.held i u hu

/-- A constant is held wherever its cell is, from when it was made. -/
theorem agrees (h : K.Fit w) (hle : K ≤ K') {i : Nat} (hi : i < w.cells.size)
    (hv : K'.cells[i]? = some (some v)) : w.cells[i]? = some v := by
  refine h.held i v ?_
  -- The cell is there already, so the earlier knowledge has a say about it, and the same one.
  rw [← h.size] at hi
  have hknown := known_mono hle (List.getElem?_eq_getElem hi)
  rw [hv] at hknown
  rw [List.getElem?_eq_getElem hi, ← hknown]

end Fit

end Constants

/-- **The invariant.** Every world is as known at its time, and every cell that is made is known. -/
def constancy (ν : Notes) : Invariant Constants ν where
  world := Constants.Fit
  event K ev :=
    (∀ w ∈ ev.worlds, ∃ K' ≤ K, K'.Fit w) ∧ ∀ b c w, ev = .bound b c w → K.Knows c
  assumed _ := True
  fault _ := True
  event_mono hle h := by
    refine ⟨fun w hw => ?_, fun b c w hev => (h.2 b c w hev).mono hle⟩
    obtain ⟨K', hK', hfit⟩ := h.1 w hw
    exact ⟨K', le_trans hK' hle, hfit⟩
  value _ _ := True
  cell := Constants.Knows
  value_mono _ _ := trivial
  cell_mono := Constants.Knows.mono
  faults _ := trivial
  scalar _ := trivial
  read _ _ := trivial
  items _ _ := trivial
  newList {K _ _} hw _ := ⟨K, le_refl K, hw.of_cells_eq rfl, trivial⟩
  newCell {K _ v} mutable hw _ :=
    ⟨K.next mutable v, K.le_next mutable v, hw.newCell mutable v, hw.knows_newCell mutable v⟩
  write {K _ _ _} hw hc hmutable _ := ⟨K, le_refl K, hw.writeCell hc hmutable⟩
  store {K _ _ _ _} hw _ _ _ _ := ⟨K, le_refl K, hw.of_cells_eq rfl⟩
  emit text hw := hw.of_cells_eq (World.emit_cells text _)
  evaluated {K K' _ _ _ _} hle hbefore _ hafter _ := by
    refine ⟨List.forall_mem_cons.mpr ⟨⟨K, hle, hbefore⟩, ?_⟩, nofun⟩
    exact List.forall_mem_singleton.mpr ⟨K', le_refl K', hafter⟩
  executed {K K' _ _ _} hle hbefore _ hafter _ := by
    refine ⟨List.forall_mem_cons.mpr ⟨⟨K, hle, hbefore⟩, ?_⟩, nofun⟩
    exact List.forall_mem_singleton.mpr ⟨K', le_refl K', hafter⟩
  applied {K _ _ _ _} hw _ _ := ⟨List.forall_mem_singleton.mpr ⟨K, le_refl K, hw⟩, nofun⟩
  bound {K _ _ _} hw hc := by
    refine ⟨List.forall_mem_singleton.mpr ⟨K, le_refl K, hw⟩, ?_⟩
    rintro _ _ _ ⟨⟩
    exact hc
  called {K _ _ _ _} hw _ := ⟨List.forall_mem_singleton.mpr ⟨K, le_refl K, hw⟩, nofun⟩
  passed {K _ _ _ _} hw _ := ⟨List.forall_mem_singleton.mpr ⟨K, le_refl K, hw⟩, nofun⟩

/-! ## §3 Runs -/

theorem Event.now_mem (ev : Event ν) : ev.now ∈ ev.worlds := by
  cases ev <;> simp [Event.now, Event.worlds]

/-- **What stays** from one state of the world to another: the values of some cells, all lists and
their lengths, and what is a position in a list. -/
structure World.Preserves (constant : Cell → Prop) (w w' : World) : Prop where
  values : ∀ c, constant c → c.location < w.cells.size →
    w'.cells[c.location]? = w.cells[c.location]?
  lists : ∀ id < w.heap.lists.size, id < w'.heap.lists.size
  lengths : ∀ id < w.heap.lists.size, (w'.heap.items id).length = (w.heap.items id).length
  positions : ∀ id < w.heap.lists.size, ∀ index place,
    position index (w.heap.items id).length = .ok place →
    position index (w'.heap.items id).length = .ok place

/-- Growth, and constants that are known. -/
theorem World.GrowsTo.preserves {w w' : World} (h : w.GrowsTo w') {constant : Cell → Prop}
    {K K₁ K₂ : Constants} (hw : K₁.Fit w) (hK₁ : K₁ ≤ K) (hw' : K₂.Fit w') (hK₂ : K₂ ≤ K)
    (hconstant : ∀ c, constant c → ∃ v, K.cells[c.location]? = some (some v)) :
    w.Preserves constant w' where
  values c hc hlt := by
    obtain ⟨v, hv⟩ := hconstant c hc
    rw [hw.agrees hK₁ hlt hv, hw'.agrees hK₂ (lt_of_lt_of_le hlt h.cells) hv]
  lists id hid := (h.lists id hid).1
  lengths id hid := (h.lists id hid).2
  positions id hid index place hplace := by rw [(h.lists id hid).2, hplace]

/-- The first of the globals: its value is there, it gets the next cell, and the others follow. -/
theorem initGlobals_cons_done {d : Discipline ν} {n : Nat} {g : Global ν} {rest : List (Global ν)}
    {m m' : Machine ν} (hdone : initGlobals d n (g :: rest) m = (.done (), m')) :
    ∃ m₁ : Machine ν, initGlobals d n rest m₁ = (.done (), m') ∧
      ∃ c : Cell, c.mutable = g.mutable ∧ c.location < m₁.world.cells.size ∧
        m₁.scope.findVariable g.name = some c ∧
        ∀ after, globalsTrail d n (g :: after) m =
          initialTrail d n m.scope g.value m.world ++
            .bound g.binding c m₁.world :: globalsTrail d n after m₁ := by
  obtain ⟨outcome, w, hinitial⟩ :
      ∃ outcome w, evalInitial d n m.scope g.value m.world = (outcome, w) := ⟨_, _, rfl⟩
  simp only [initGlobals, Run.bind_apply, Machine.inWorld, hinitial] at hdone
  cases outcome with
  | done v =>
      have hlt : w.cells.size < (World.newCell v w).2.cells.size := by simp [World.newCell]
      refine ⟨⟨m.scope.defineVariable g.name ⟨w.cells.size, g.mutable⟩, (World.newCell v w).2⟩,
        hdone, ⟨w.cells.size, g.mutable⟩, rfl, hlt, ?_, fun after => ?_⟩
      · rw [Scope.findVariable_defineVariable, if_pos rfl]
      · simp [globalsTrail, Trail.andThen, Trail.inWorld, Trail.declare, Trail.quiet, Trail.opening,
          Machine.inWorld, Machine.declare, World.newCell, hinitial]
  | failed e => cases hdone
  | unfinished => cases hdone

/-- After a global was defined, its name stands for the latest cell, which its event tells of. -/
theorem globals_bound {d : Discipline ν} {n : Nat} (before : List (Global ν)) (g : Global ν)
    (after : List (Global ν)) {m m' : Machine ν}
    (hdone : initGlobals d n (before ++ [g]) m = (.done (), m')) :
    ∃ c : Cell, c.mutable = g.mutable ∧ c.location < m'.world.cells.size ∧
      m'.scope.findVariable g.name = some c ∧
      .bound g.binding c m'.world ∈ globalsTrail d n (before ++ g :: after) m := by
  induction before generalizing m with
  | nil =>
      -- The global is the first one, and no other follows before the state that is asked about.
      obtain ⟨m₁, hrest, c, hmutable, hlt, hfind, htrail⟩ := initGlobals_cons_done hdone
      obtain rfl : m₁ = m' := congrArg Prod.snd hrest
      refine ⟨c, hmutable, hlt, hfind, ?_⟩
      rw [List.nil_append, htrail]
      exact List.mem_append_right _ List.mem_cons_self
  | cons first before ih =>
      obtain ⟨m₁, hrest, _, -, -, -, htrail⟩ := initGlobals_cons_done hdone
      obtain ⟨c, hmutable, hlt, hfind, hbound⟩ := ih hrest
      refine ⟨c, hmutable, hlt, hfind, ?_⟩
      rw [List.cons_append, htrail]
      exact List.mem_append_right _ (List.mem_cons_of_mem _ hbound)

end Eval

open Eval

variable {ν : Notes}

/-- **The states of a run in the order of time**: its start, the moments of all its events, and its
end.  Whatever changes the world is followed by an event at once: no state in between is left
out. -/
def Program.timeline (n : Nat) (p : Program ν) (start : World) : List World :=
  Eval.timeline (p.run n) (p.trail n) start

/-- The cells that are made in a run for globals that must not change. -/
def Program.Constant (n : Nat) (p : Program ν) (start : World) (c : Cell) : Prop :=
  c.mutable = false ∧ ∃ binding w, .bound binding c w ∈ p.trail n start

/-- **Constants and lengths are stable.** In every run of any program, checked or not:

* from each state to all later ones, and in the course of each event, the cells of constants
  hold the same values, and every list is there with as many items and the same positions;
* as soon as a constant is defined, its name stands for such a cell. -/
theorem Program.constants_and_lengths_stable (p : Program ν) (n : Nat) (output : Output) :
    (p.timeline n (.start output)).Pairwise (World.Preserves (p.Constant n (.start output))) ∧
    (∀ ev ∈ p.trail n (.start output), ∀ w ∈ ev.worlds,
      w.Preserves (p.Constant n (.start output)) ev.now) ∧
    ∀ before g after m, p.globals = before ++ g :: after → g.mutable = false →
      initGlobals .dynamic n (before ++ [g]) ⟨builtins, .start output⟩ = (.done (), m) →
      m.world ∈ p.timeline n (.start output) ∧
        ∃ c, m.scope.findVariable g.name = some c ∧ c.location < m.world.cells.size ∧
          p.Constant n (.start output) c := by
  have hgrows : Growing (p.run n) (p.trail n) (.start output) :=
    (growing ν).run .dynamic n p (.start output)
  have hkept := (constancy ν).run_keeps Discipline.dynamic_enclosed n p
    (k := ⟨[]⟩) (w := .start output) ⟨rfl, nofun⟩
  obtain ⟨K, hstart, hend, hevents, -⟩ := hkept fun _ _ => trivial
  have hconstant : ∀ c, p.Constant n (.start output) c →
      ∃ v, K.cells[c.location]? = some (some v) := by
    rintro c ⟨hmutable, binding, w, hbound⟩
    exact Constants.Knows.held ((hevents _ hbound).2 binding c w rfl) hmutable
  -- Each state on the way is known as well as it was at its time, which is part of `K`.
  have hfit : ∀ w ∈ p.timeline n (.start output), ∃ K' ≤ K, K'.Fit w := by
    intro w hw
    rcases List.mem_append.mp hw with hw | hw
    · rcases List.mem_cons.mp hw with rfl | hw
      · exact ⟨⟨[]⟩, hstart, rfl, nofun⟩
      · obtain ⟨ev, hev, rfl⟩ := List.mem_map.mp hw
        exact (hevents ev hev).1 _ ev.now_mem
    · obtain rfl := List.mem_singleton.mp hw
      exact ⟨K, le_refl K, hend⟩
  refine ⟨?later, ?events, ?defined⟩
  case later =>
    refine hgrows.points.imp_of_mem fun {w w'} hw hw' h => ?_
    obtain ⟨K₁, hK₁, hfit₁⟩ := hfit w hw
    obtain ⟨K₂, hK₂, hfit₂⟩ := hfit w' hw'
    exact h.preserves hfit₁ hK₁ hfit₂ hK₂ hconstant
  case events =>
    intro ev hev w hw
    obtain ⟨K₁, hK₁, hfit₁⟩ := (hevents ev hev).1 w hw
    obtain ⟨K₂, hK₂, hfit₂⟩ := (hevents ev hev).1 _ ev.now_mem
    exact (hgrows.events ev hev w hw).preserves hfit₁ hK₁ hfit₂ hK₂ hconstant
  case defined =>
    intro before g after m hglobals hval hdone
    obtain ⟨c, hmutable, hlt, hfind, hbound⟩ := globals_bound before g after hdone
    rw [← hglobals] at hbound
    have hmem : .bound g.binding c m.world ∈ p.trail n (.start output) :=
      List.mem_append_left _ hbound
    refine ⟨?_, c, hfind, hlt, hmutable.trans hval, g.binding, m.world, hmem⟩
    exact List.mem_append_left _ (List.mem_cons_of_mem _ (List.mem_map.mpr ⟨_, hmem, rfl⟩))

/-- A constant list that is written to under another name, next to a variable that hides it. -/
def aliasedConstant : Program Bare :=
  ⟨[⟨0, (), "xs", none, false, false, some (.list 0 () [.literal 0 () (.integer 1)])⟩],
    [⟨0, (), "main", [], none,
      [.declare 0 () "ys" none (some (.var 0 () () "xs")),
        .assign (.element 0 () () "ys" (.literal 0 () (.integer 0))) (.literal 0 () (.integer 9)),
        .declare 0 () "xs" none none,
        .assign (.var 0 () () "xs") (.literal 0 () (.integer 3))]⟩]⟩

/-- The state in which the constant is defined. -/
def aliasedConstantDefined : Outcome Fault Unit × Machine Bare :=
  initGlobals .dynamic 20 aliasedConstant.globals ⟨builtins, .start .recording⟩

theorem aliasedConstant_stable :
    ∃ c, aliasedConstantDefined.2.scope.findVariable "xs" = some c ∧
      aliasedConstant.Constant 20 (.start .recording) c ∧ c.location = 0 ∧
      (aliasedConstant.run 20 (.start .recording)).1 = .done .nil ∧
      (aliasedConstant.run 20 (.start .recording)).2.heap.items 0 = [.integer 9] ∧
      (aliasedConstant.run 20 (.start .recording)).2.cells =
        #[.list 0, .list 0, .integer 3] := by
  have hdone : aliasedConstantDefined.1 = .done () := by decide +kernel
  have hfound : aliasedConstantDefined.2.scope.findVariable "xs" = some ⟨0, false⟩ := by
    decide +kernel
  obtain ⟨-, c, hc, -, hconstant⟩ :=
    (Program.constants_and_lengths_stable aliasedConstant 20 .recording).2.2 [] _ []
      aliasedConstantDefined.2 rfl rfl (Prod.ext hdone rfl)
  have hlocation : some (Cell.location ⟨0, false⟩) = some c.location :=
    congrArg (Option.map Cell.location) (hfound.symm.trans hc)
  refine ⟨c, hc, hconstant, (Option.some.inj hlocation).symm, ?_, ?_, ?_⟩
  · decide +kernel
  · decide +kernel
  · decide +kernel

end DynImp
