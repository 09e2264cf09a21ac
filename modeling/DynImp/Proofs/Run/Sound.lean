import DynImp.Proofs.Run.Acyclic
import DynImp.Proofs.Run.Persistence

/-!
# Sound machines

What every machine is in which a run evaluates an expression or executes a statement: its
world is sound, and every name stands for a cell that the world has.  An evaluation that
starts in such a machine leaves one, and makes no list shorter or longer.

An invariant of worlds knows which cells there are as soon as it counts them: `withCells`
adds the count to any invariant.
-/

namespace DynImp

namespace Eval

variable {ν : Notes} {κ : Type} [Preorder κ]

/-! ## §1 Counting cells -/

/-- All names of a machine stand for cells that are there. -/
def Machine.CellsExist (m : Machine ν) : Prop :=
  m.scope.EachVariable fun c => c.location < m.world.cells.size

/-- The machine that an evaluation or an execution starts in. -/
def Event.machine? : Event ν → Option (Machine ν)
  | evaluated scope _ before _ => some ⟨scope, before⟩
  | executed _ before _ => some before
  | _ => none

/-- **The invariant with a count of the cells**, below which all cells are that names stand for. -/
def Invariant.withCells (I : Invariant κ ν) : Invariant (κ × Nat) ν where
  world k w := I.world k.1 w ∧ w.cells.size = k.2
  event k ev := I.event k.1 ev ∧ ∀ m ∈ ev.machine?, m.CellsExist
  assumed := I.assumed
  fault := I.fault
  event_mono hle h := ⟨I.event_mono hle.1 h.1, h.2⟩
  value k v := I.value k.1 v
  cell k c := I.cell k.1 c ∧ c.location < k.2
  value_mono hle h := I.value_mono hle.1 h
  cell_mono hle h := ⟨I.cell_mono hle.1 h.1, lt_of_lt_of_le h.2 hle.2⟩
  faults := I.faults
  scalar := I.scalar
  read hw hc := I.read hw.1 hc.1
  items hw hv := I.items hw.1 hv
  newList {k w items} hw hitems := by
    obtain ⟨k', hle, hw', hv⟩ := I.newList hw.1 hitems
    exact ⟨(k', k.2), ⟨hle, le_refl _⟩, ⟨hw', hw.2⟩, hv⟩
  newCell {k w v} mutable hw hv := by
    obtain ⟨k', hle, hw', hc⟩ := I.newCell mutable hw.1 hv
    refine ⟨(k', k.2 + 1), ⟨hle, Nat.le_succ _⟩, ⟨hw', ?_⟩, hc, ?_⟩
    · rw [← hw.2]
      exact Array.size_push v
    · rw [hw.2]
      exact Nat.lt_succ_self _
  write {k w c v} hw hc hmutable hv := by
    obtain ⟨k', hle, hw'⟩ := I.write hw.1 hc.1 hmutable hv
    exact ⟨(k', k.2), ⟨hle, le_refl _⟩, hw', by simp [World.writeCell, hw.2]⟩
  store {k w id position v} hw hid hv hnot hposition := by
    obtain ⟨k', hle, hw'⟩ := I.store hw.1 hid hv hnot hposition
    exact ⟨(k', k.2), ⟨hle, le_refl _⟩, hw', hw.2⟩
  emit text hw := ⟨I.emit text hw.1, by rw [World.emit_cells]; exact hw.2⟩
  evaluated hle hbefore hscope hafter hv := by
    refine ⟨I.evaluated hle.1 hbefore.1 (hscope.imp fun _ hc => hc.1) hafter.1 hv, ?_⟩
    rintro m ⟨⟩
    exact hscope.imp fun _ hc => lt_of_lt_of_eq hc.2 hbefore.2.symm
  executed hle hbefore hscope hafter hv := by
    refine ⟨I.executed hle.1 hbefore.1 (hscope.imp fun _ hc => hc.1) hafter.1 hv, ?_⟩
    rintro m ⟨⟩
    exact hscope.imp fun _ hc => lt_of_lt_of_eq hc.2 hbefore.2.symm
  applied hw ha hb := ⟨I.applied hw.1 ha hb, nofun⟩
  bound hw hc := ⟨I.bound hw.1 hc.1, nofun⟩
  called hw hargs := ⟨I.called hw.1 hargs, nofun⟩
  passed hw hc := ⟨I.passed hw.1 hc.1, nofun⟩

/-! ## §2 Machines -/

/-- **Sound machines.** -/
structure Machine.Sound (m : Machine ν) : Prop where
  world : m.world.Sound
  cells : m.CellsExist

namespace Machine.Sound

variable {m : Machine ν} {n : Nat}

/-- The number of lists and of cells, by which the invariant knows a machine. -/
private def census (m : Machine ν) : Nat × Nat := (m.world.heap.lists.size, m.world.cells.size)

private theorem census_world (hm : m.Sound) :
    (acyclicInvariant ν).withCells.world (census m) m.world :=
  ⟨⟨rfl, hm.world⟩, rfl⟩

private theorem census_scoped (hm : m.Sound) :
    (acyclicInvariant ν).withCells.Scoped (census m) m.scope :=
  hm.cells.imp fun _ hc => ⟨trivial, hc⟩

private theorem of_known {k : Nat × Nat} (hw : (acyclicInvariant ν).withCells.world k m.world)
    (hs : (acyclicInvariant ν).withCells.Scoped k m.scope) : m.Sound where
  world := hw.1.2
  cells := hs.imp fun _ hc => lt_of_lt_of_eq hc.2 hw.2.symm

/-- A cell that a name stands for is there. -/
theorem lt_size (hm : m.Sound) {name : String} {c : Cell}
    (hname : m.scope.findVariable name = some c) : c.location < m.world.cells.size :=
  hm.cells.find hname

/-- **Evaluation** in a sound machine leaves a sound one, in which all lists are as long as they
were.  The value, if there is one, is a scalar or a list of the heap. -/
theorem eval (hm : m.Sound) {e : Expr ν} {outcome : Outcome Fault Value} {w : World}
    (heval : Eval.eval .dynamic n m.scope e m.world = (outcome, w)) :
    (⟨m.scope, w⟩ : Machine ν).Sound ∧ m.world.GrowsTo w ∧
      ∀ v, outcome = .done v → w.heap.Holds v := by
  obtain ⟨k, hle, hw, -, hpost⟩ := ((acyclicInvariant ν).withCells.kept
    Discipline.dynamic_enclosed n).eval e hm.census_world hm.census_scoped fun _ _ => trivial
  have hgrows := (((growing ν).kept .dynamic n).eval m.scope e m.world).ends
  rw [heval] at hw hpost hgrows
  refine ⟨.of_known hw (hm.census_scoped.mono hle), hgrows, ?_⟩
  rintro v rfl id hid
  exact lt_of_lt_of_eq (hpost id hid) hw.1.1.symm

end Machine.Sound

end Eval

open Eval

variable {ν : Notes}

/-- **Machines of a run are sound.** Whatever a run of a program evaluates or executes, it does so
in a sound machine. -/
theorem Program.machines_sound (p : Program ν) (n : Nat) (output : Output) :
    ∀ ev ∈ p.trail n (.start output), ∀ m ∈ ev.machine?, m.Sound := by
  have hrun := (acyclicInvariant ν).withCells.run_keeps Discipline.dynamic_enclosed n p
    (k := (0, 0)) (w := .start output) ⟨⟨rfl, World.start_sound output⟩, rfl⟩
  obtain ⟨k, -, -, hevents, -⟩ := hrun fun _ _ => trivial
  intro ev hev m hm
  obtain ⟨⟨hworlds, -⟩, hcells⟩ := hevents ev hev
  refine ⟨hworlds m.world ?_, hcells m hm⟩
  cases ev with
  | evaluated | executed =>
      cases hm
      exact List.mem_cons_self
  | applied | bound | called | passed => cases hm

end DynImp
