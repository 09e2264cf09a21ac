import DynImp.Proofs.Heap.Acyclic
import DynImp.Proofs.Run.Invariant

/-!
# Runs keep the heap acyclic

A list is made of values that are there already, and a value is stored in a list only if
the list was not found in it.  Both keep the heap acyclic, so it is acyclic in every state
that a run passes through, and every value there can be printed, compared and searched.
-/

namespace DynImp

namespace Eval

/-! ## §1 States of a run -/

/-- **Sound worlds.** The heap is acyclic, and nothing names a list that does not exist. -/
structure World.Sound (w : World) : Prop where
  acyclic : w.heap.Acyclic
  closed : w.heap.Closed
  cells : ∀ v ∈ w.cells, w.heap.Holds v

/-- The values that an event is about, each with the world it is a value of. -/
def Event.values {ν : Notes} : Event ν → List (World × Value)
  | evaluated _ _ _ (.done v, after) => [(after, v)]
  | executed _ _ (.done (.returned v), after) => [(after.world, v)]
  | applied _ a b world => [(world, a), (world, b)]
  | called _ _ args world => args.map (world, ·)
  | _ => []

theorem World.start_sound (output : Output) : (World.start output).Sound :=
  ⟨Heap.empty_acyclic, Heap.empty_closed, fun _ hv => by simp [World.start] at hv⟩

namespace World.Sound

variable {w : World}

theorem newList (hw : w.Sound) {items : List Value} (hitems : ∀ v ∈ items, w.heap.Holds v) :
    (World.newList items w).2.Sound where
  acyclic := hw.acyclic.alloc hw.closed hitems
  closed := hw.closed.alloc hitems
  cells v hv := (hw.cells v hv).mono (by simp [World.newList])

theorem newCell (hw : w.Sound) {v : Value} (hv : w.heap.Holds v) :
    (World.newCell v w).2.Sound where
  acyclic := hw.acyclic
  closed := hw.closed
  cells u hu := by
    rcases Array.mem_push.mp hu with hu | rfl
    · exact hw.cells u hu
    · exact hv

theorem writeCell (hw : w.Sound) {cell : Nat} {v : Value} (hv : w.heap.Holds v) :
    (World.writeCell cell v w).2.Sound where
  acyclic := hw.acyclic
  closed := hw.closed
  cells u hu := by
    rcases Array.mem_or_eq_of_mem_setIfInBounds hu with hu | rfl
    · exact hw.cells u hu
    · exact hv

theorem setItem (hw : w.Sound) {id : ListId} {position : Nat} {v : Value} (hv : w.heap.Holds v)
    (hnot : w.heap.contains? v id = some false) : (World.setItem id position v w).2.Sound where
  acyclic := hw.acyclic.setItem hnot
  closed := hw.closed.setItem hv
  cells u hu := (hw.cells u hu).mono (by simp [World.setItem])

theorem emit (hw : w.Sound) (text : String) : (World.emit text w).2.Sound where
  acyclic := by rw [World.emit_heap]; exact hw.acyclic
  closed := by rw [World.emit_heap]; exact hw.closed
  cells := by rw [World.emit_heap, World.emit_cells]; exact hw.cells

end World.Sound

/-- **The invariant.** It counts the lists, so that what is held once stays held. -/
def acyclicInvariant (ν : Notes) : Invariant Nat ν where
  world size w := w.heap.lists.size = size ∧ w.Sound
  event _ ev := (∀ w ∈ ev.worlds, w.Sound) ∧ ∀ entry ∈ ev.values, entry.1.heap.Holds entry.2
  assumed _ := True
  fault _ := True
  event_mono _ h := h
  value size v := ∀ id, v = .list id → id < size
  cell _ _ := True
  value_mono hle hv id hid := lt_of_lt_of_le (hv id hid) hle
  cell_mono _ _ := trivial
  faults _ := trivial
  scalar _ _ h := by cases h
  read {size w c} hw _ := by
    obtain ⟨rfl, hw⟩ := hw
    rw [Array.getD_eq_getD_getElem?]
    cases hget : w.cells[c.location]? with
    | none => exact w.heap.holds_scalar .nil
    | some v => exact hw.cells v (Array.mem_of_getElem? hget)
  items {size w id v} hw hv := by
    obtain ⟨rfl, hw⟩ := hw
    exact hw.closed id v hv
  newList {size w items} hw hitems := by
    obtain ⟨rfl, hw⟩ := hw
    refine ⟨w.heap.lists.size + 1, Nat.le_succ _, ⟨by simp [World.newList], hw.newList hitems⟩, ?_⟩
    intro id hid
    cases hid
    exact Nat.lt_succ_self _
  newCell {size w v} mutable hw hv := by
    obtain ⟨rfl, hw⟩ := hw
    exact ⟨w.heap.lists.size, le_refl _, ⟨rfl, hw.newCell hv⟩, trivial⟩
  write {size w c v} hw _ _ hv := by
    obtain ⟨rfl, hw⟩ := hw
    exact ⟨w.heap.lists.size, le_refl _, ⟨rfl, hw.writeCell hv⟩⟩
  store {size w id position v} hw _ hv hnot _ := by
    obtain ⟨rfl, hw⟩ := hw
    exact ⟨w.heap.lists.size, le_refl _, ⟨by simp [World.setItem], hw.setItem hv hnot⟩⟩
  emit {size w} text hw := by
    obtain ⟨rfl, hw⟩ := hw
    exact ⟨by rw [World.emit_heap], hw.emit text⟩
  evaluated {size size' scope e before result} _ hbefore _ hafter hv := by
    refine ⟨by simpa [Event.worlds] using ⟨hbefore.2, hafter.2⟩, ?_⟩
    obtain ⟨outcome, after⟩ := result
    obtain ⟨rfl, -⟩ := hafter
    cases outcome with
    | done v =>
        rw [Event.values, List.forall_mem_singleton]
        exact hv v rfl
    | failed e => simp [Event.values]
    | unfinished => simp [Event.values]
  executed {size size' s before result} _ hbefore _ hafter hv := by
    refine ⟨by simpa [Event.worlds] using ⟨hbefore.2, hafter.2⟩, ?_⟩
    obtain ⟨outcome, after⟩ := result
    obtain ⟨rfl, -⟩ := hafter
    cases outcome with
    | done flow => cases flow with
      | next => simp [Event.values]
      | returned v =>
          rw [Event.values, List.forall_mem_singleton]
          exact hv v rfl
    | failed e => simp [Event.values]
    | unfinished => simp [Event.values]
  applied {size op a b w} hw ha hb := by
    obtain ⟨rfl, hw⟩ := hw
    refine ⟨by simpa [Event.worlds] using hw, ?_⟩
    rw [Event.values, List.forall_mem_cons, List.forall_mem_singleton]
    exact ⟨ha, hb⟩
  bound hw _ := ⟨by simpa [Event.worlds] using hw.2, by simp [Event.values]⟩
  called {size b f args w} hw hargs := by
    obtain ⟨rfl, hw⟩ := hw
    refine ⟨by simpa [Event.worlds] using hw, ?_⟩
    rw [Event.values, List.forall_mem_map]
    exact hargs
  passed hw _ := ⟨by simpa [Event.worlds] using hw.2, by simp [Event.values]⟩

end Eval

open Eval

variable {ν : Notes}

/-- **The states of a run**: its start, those around every event, and its end. -/
def Program.worlds (n : Nat) (p : Program ν) (start : World) : List World :=
  start :: (p.trail n start).flatMap Event.worlds ++ [(p.run n start).2]

/-- **The values of a run**: all that its events are about and the one of `main`, each with the
world it is a value of. -/
def Program.values (n : Nat) (p : Program ν) (start : World) : List (World × Value) :=
  (p.trail n start).flatMap Event.values ++
    match p.run n start with
    | (.done v, w) => [(w, v)]
    | _ => []

/-- **Questions about a value** that follow it into its lists, and end. -/
structure Heap.Answers (h : Heap) (v : Value) : Prop where
  text : Settled h.lists.size fun bound => h.textWithin bound v
  equal : ∀ u, Settled h.lists.size fun bound => h.equalWithin bound v u
  contains : ∀ target, Settled h.lists.size fun bound => h.containsWithin target bound v

theorem Eval.World.Sound.answers {w : World} (hw : w.Sound) {v : Value} (hv : w.heap.Holds v) :
    w.heap.Answers v where
  text := hw.acyclic.settled_text hw.closed hv
  equal := hw.acyclic.settled_equal hw.closed hv
  contains := hw.acyclic.settled_contains hw.closed hv

/-! ## §2 Every state -/

/-- The world of a value that an event is about is one of those that the event is about. -/
theorem Eval.Event.world_mem {ev : Event ν} {entry : World × Value} (h : entry ∈ ev.values) :
    entry.1 ∈ ev.worlds := by
  unfold Event.values at h
  split at h
  · obtain rfl := List.mem_singleton.mp h
    simp [Event.worlds]
  · obtain rfl := List.mem_singleton.mp h
    simp [Event.worlds]
  · rcases List.mem_cons.mp h with rfl | h
    · simp [Event.worlds]
    · obtain rfl := List.mem_singleton.mp h
      simp [Event.worlds]
  · obtain ⟨v, -, rfl⟩ := List.mem_map.mp h
    simp [Event.worlds]
  · exact (List.not_mem_nil h).elim

private theorem run_sound (p : Program ν) (n : Nat) (output : Output) :
    (∀ w ∈ p.worlds n (.start output), w.Sound) ∧
      ∀ entry ∈ p.values n (.start output),
        entry.1 ∈ p.worlds n (.start output) ∧ entry.1.heap.Holds entry.2 := by
  have hrun := (acyclicInvariant ν).run_keeps Discipline.dynamic_enclosed n p
    (k := 0) (w := .start output) ⟨rfl, World.start_sound output⟩
  obtain ⟨size, -, ⟨hsize, hend⟩, hevents, hvalue⟩ := hrun fun _ _ => trivial
  constructor
  · intro w hw
    simp only [Program.worlds, List.cons_append, List.mem_cons, List.mem_append,
      List.mem_flatMap, List.not_mem_nil, or_false] at hw
    rcases hw with rfl | ⟨ev, hev, hw⟩ | rfl
    · exact World.start_sound output
    · exact (hevents ev hev).1 w hw
    · exact hend
  · intro entry hentry
    simp only [Program.worlds, List.cons_append, List.mem_cons, List.mem_append,
      List.mem_flatMap, List.not_mem_nil, or_false]
    rcases List.mem_append.mp hentry with hentry | hentry
    · obtain ⟨ev, hev, hentry⟩ := List.mem_flatMap.mp hentry
      exact ⟨Or.inr (Or.inl ⟨ev, hev, Event.world_mem hentry⟩), (hevents ev hev).2 entry hentry⟩
    · split at hentry
      · next v w hdone =>
          -- The value of `main` belongs to the last state.
          obtain rfl := List.mem_singleton.mp hentry
          have hunder : p.runUnder .dynamic n (.start output) = (.done v, w) := hdone
          rw [hunder] at hsize hvalue
          rw [hdone]
          refine ⟨Or.inr (Or.inr rfl), ?_⟩
          intro id hid
          exact lt_of_lt_of_eq (hvalue id hid) hsize.symm
      · exact (List.not_mem_nil hentry).elim

/-- **The heap stays acyclic.** In every state that a run of any program passes through no list
reaches itself.  All values there are scalars or lists of the heap, in cells, in lists and in
the hands of the evaluator; and printing them, comparing them and searching them end. -/
theorem Program.heap_acyclic (p : Program ν) (n : Nat) (output : Output) :
    (∀ w ∈ p.worlds n (.start output),
      w.heap.Acyclic ∧ w.heap.Closed ∧ (∀ v ∈ w.cells, w.heap.Holds v) ∧
        ∀ v, w.heap.Holds v → w.heap.Answers v) ∧
    ∀ entry ∈ p.values n (.start output),
      entry.1 ∈ p.worlds n (.start output) ∧ entry.1.heap.Holds entry.2 := by
  obtain ⟨hworlds, hvalues⟩ := run_sound p n output
  refine ⟨?_, hvalues⟩
  intro w hw
  have hsound := hworlds w hw
  exact ⟨hsound.acyclic, hsound.closed, hsound.cells, fun v hv => hsound.answers hv⟩

/-- A program that tries to store a list in itself, by way of a second one. -/
def selfStoring : Program Bare :=
  ⟨[], [⟨0, (), "main", [], none,
    [.declare 0 () "a" none (some (.list 0 () [.literal 0 () (.integer 1)])),
      .declare 0 () "b" none (some (.list 0 () [.var 0 () () "a"])),
      .assign (.element 0 () () "a" (.literal 0 () (.integer 0))) (.var 0 () () "b")]⟩]⟩

theorem selfStoring_acyclic :
    ∃ w ∈ selfStoring.worlds 20 (.start .recording),
      (selfStoring.run 20 (.start .recording)).1 = .failed .cyclicList ∧
        w.heap.items 0 = [.integer 1] ∧ w.heap.items 1 = [.list 0] ∧ w.heap.Acyclic := by
  have hmem : (selfStoring.run 20 (.start .recording)).2 ∈
      selfStoring.worlds 20 (.start .recording) :=
    List.mem_append_right _ List.mem_cons_self
  refine ⟨_, hmem, by decide +kernel, by decide +kernel, by decide +kernel, ?_⟩
  exact ((Program.heap_acyclic selfStoring 20 .recording).1 _ hmem).1

end DynImp
