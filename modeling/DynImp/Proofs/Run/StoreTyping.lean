import DynImp.Proofs.Eval.Tags
import DynImp.Proofs.Heap.Acyclic
import DynImp.Proofs.Run.Model

/-!
# Store typings

A store typing gives every cell and every list a type, once and for all: cells the type of
the variable they were made for, lists the type of the literal they come from.  Lists keep
their type under every alias, since one list type accepts no other.  A typing only grows in
the course of a run, so what it says of old cells and lists stays true.
-/

namespace DynImp

namespace Eval

open Typing

/-! ## §1 Typings -/

/-- **Store typing.** The types of all cells, and the element types of all lists. -/
structure StoreTyping where
  cells : List Ty
  lists : List Ty

namespace StoreTyping

/-- A later typing has more cells and more lists. -/
instance : Preorder StoreTyping where
  le S S' := S.cells <+: S'.cells ∧ S.lists <+: S'.lists
  le_refl _ := ⟨List.prefix_rfl, List.prefix_rfl⟩
  le_trans _ _ _ h h' := ⟨h.1.trans h'.1, h.2.trans h'.2⟩

/-- **Admitted values.** The type allows the tag of the value, and a list has its elements. -/
def Admits (S : StoreTyping) (τ : Ty) (v : Value) : Prop :=
  τ.allows v.tag = true ∧
    ∀ element id, τ = .list element → v = .list id → S.lists[id]? = some element

/-- **Described worlds.** Every cell and every list has a type, and holds what the type admits. -/
structure Describes (S : StoreTyping) (w : World) : Prop where
  cells_le : w.cells.size ≤ S.cells.length
  lists_le : w.heap.lists.size ≤ S.lists.length
  cells : ∀ (c : Nat) τ v, S.cells[c]? = some τ → w.cells[c]? = some v → S.Admits τ v
  lists : ∀ id element, S.lists[id]? = some element → ∀ v ∈ w.heap.items id, S.Admits element v

/-- A described world with no less cells and lists than the typing. -/
structure Fits (S : StoreTyping) (w : World) : Prop extends S.Describes w where
  cells_ge : S.cells.length ≤ w.cells.size
  lists_ge : S.lists.length ≤ w.heap.lists.size

variable {S S' : StoreTyping} {τ σ : Ty} {v : Value} {w : World}

private theorem prefix_getElem? {α : Type} {as bs : List α} (h : as <+: bs) {i : Nat}
    (hi : i < as.length) : bs[i]? = as[i]? := by
  obtain ⟨rest, rfl⟩ := h
  exact List.getElem?_append_left hi

theorem cells_mono (hS : S ≤ S') {c : Nat} (h : S.cells[c]? = some τ) :
    S'.cells[c]? = some τ := by
  obtain ⟨hlt, -⟩ := List.getElem?_eq_some_iff.mp h
  rw [prefix_getElem? hS.1 hlt, h]

theorem lists_mono (hS : S ≤ S') {id : ListId} (h : S.lists[id]? = some τ) :
    S'.lists[id]? = some τ := by
  obtain ⟨hlt, -⟩ := List.getElem?_eq_some_iff.mp h
  rw [prefix_getElem? hS.2 hlt, h]

theorem admits_scalar {s : Scalar} (h : τ.allows (Value.scalar s).tag = true) :
    S.Admits τ (.scalar s) :=
  ⟨h, fun _ _ _ hid => by cases hid⟩

namespace Admits

theorem mono (h : S.Admits τ v) (hS : S ≤ S') : S'.Admits τ v :=
  ⟨h.1, fun element id hτ hv => lists_mono hS (h.2 element id hτ hv)⟩

theorem accepts (h : S.Admits σ v) (haccepts : τ.accepts σ = true) : S.Admits τ v := by
  refine ⟨Ty.allows_of_accepts haccepts h.1, ?_⟩
  -- A list type accepts itself only.
  rintro element id rfl hv
  have hσ : .list element = σ := by simpa [Ty.accepts] using haccepts
  exact h.2 element id hσ.symm hv

theorem list_id {id : ListId} (h : S.Admits (.list τ) (.list id)) : S.lists[id]? = some τ :=
  h.2 τ id rfl rfl

end Admits

theorem admits_list {id : ListId} (h : S.lists[id]? = some τ) : S.Admits (.list τ) (.list id) := by
  refine ⟨rfl, ?_⟩
  rintro _ _ ⟨⟩ ⟨⟩
  exact h

theorem Describes.mono (h : S.Describes w) (hS : S ≤ S') : S'.Describes w where
  cells_le := Nat.le_trans h.cells_le hS.1.length_le
  lists_le := Nat.le_trans h.lists_le hS.2.length_le
  cells c τ v hτ hv := by
    obtain ⟨hlt, -⟩ := Array.getElem?_eq_some_iff.mp hv
    rw [prefix_getElem? hS.1 (Nat.lt_of_lt_of_le hlt h.cells_le)] at hτ
    exact (h.cells c τ v hτ hv).mono hS
  lists id τ hτ v hv := by
    by_cases hlt : id < w.heap.lists.size
    · rw [prefix_getElem? hS.2 (Nat.lt_of_lt_of_le hlt h.lists_le)] at hτ
      exact (h.lists id τ hτ v hv).mono hS
    · -- A list that comes later has no items yet.
      rw [Heap.items_of_size_le (Nat.not_lt.mp hlt)] at hv
      exact (List.not_mem_nil hv).elim

/-! ## §2 Accesses -/

/-- The typing before anything is declared. -/
def empty : StoreTyping := ⟨[], []⟩

theorem empty_fits (output : Output) : empty.Fits (World.start output) where
  cells_le := Nat.le_refl 0
  lists_le := Nat.le_refl 0
  cells c τ v hτ := by cases hτ
  lists id τ hτ := by cases hτ
  cells_ge := Nat.le_refl 0
  lists_ge := Nat.le_refl 0

/-- A new cell of a type. -/
def addCell (S : StoreTyping) (τ : Ty) : StoreTyping := { S with cells := S.cells ++ [τ] }

/-- A new list with elements of a type. -/
def addList (S : StoreTyping) (τ : Ty) : StoreTyping := { S with lists := S.lists ++ [τ] }

theorem le_addCell (S : StoreTyping) (τ : Ty) : S ≤ S.addCell τ :=
  ⟨List.prefix_append _ _, List.prefix_rfl⟩

theorem le_addList (S : StoreTyping) (τ : Ty) : S ≤ S.addList τ :=
  ⟨List.prefix_rfl, List.prefix_append _ _⟩

namespace Fits

theorem cells_length (h : S.Fits w) : S.cells.length = w.cells.size :=
  Nat.le_antisymm h.cells_ge h.cells_le

theorem lists_length (h : S.Fits w) : S.lists.length = w.heap.lists.size :=
  Nat.le_antisymm h.lists_ge h.lists_le

theorem newCell (h : S.Fits w) (hv : S.Admits τ v) :
    (S.addCell τ).Fits (World.newCell v w).2 ∧ (S.addCell τ).cells[w.cells.size]? = some τ := by
  have hle := S.le_addCell τ
  have hnew : (S.addCell τ).cells[w.cells.size]? = some τ := by
    rw [← h.cells_length]
    simp [addCell]
  refine ⟨⟨⟨?_, h.lists_le, ?_, ?_⟩, ?_, h.lists_ge⟩, hnew⟩
  · simp [World.newCell, addCell, h.cells_le]
  · intro c σ u hσ hu
    simp only [World.newCell, Array.getElem?_push] at hu
    split at hu
    · next heq =>
        subst heq
        cases hu
        rw [hnew] at hσ
        cases hσ
        exact hv.mono hle
    · exact (h.toDescribes.mono hle).cells c σ u hσ hu
  · exact (h.toDescribes.mono hle).lists
  · simp [World.newCell, addCell, h.cells_ge]

theorem newList (h : S.Fits w) {items : List Value} (hitems : ∀ v ∈ items, S.Admits τ v) :
    (S.addList τ).Fits (World.newList items w).2 ∧
      (S.addList τ).lists[w.heap.lists.size]? = some τ := by
  have hle := S.le_addList τ
  have hnew : (S.addList τ).lists[w.heap.lists.size]? = some τ := by
    rw [← h.lists_length]
    simp [addList]
  refine ⟨⟨⟨h.cells_le, ?_, ?_, ?_⟩, h.cells_ge, ?_⟩, hnew⟩
  · simp [World.newList, addList, h.lists_le]
  · exact (h.toDescribes.mono hle).cells
  · intro id σ hσ u hu
    rcases Heap.mem_items_alloc hu with hold | ⟨rfl, hmem⟩
    · exact (h.toDescribes.mono hle).lists id σ hσ u hold
    · rw [hnew] at hσ
      cases hσ
      exact (hitems u hmem).mono hle
  · simp [World.newList, addList, h.lists_ge]

theorem writeCell (h : S.Fits w) {c : Nat} (hc : S.cells[c]? = some τ) (hv : S.Admits τ v) :
    S.Fits (World.writeCell c v w).2 := by
  -- The place keeps its type, and the new value is of that type.
  refine ⟨⟨?_, h.lists_le, ?_, h.lists⟩, ?_, h.lists_ge⟩
  · simpa [World.writeCell] using h.cells_le
  · intro c' σ u hσ hu
    simp only [World.writeCell, Array.getElem?_setIfInBounds] at hu
    split at hu
    · next heq =>
        subst heq
        split at hu
        · cases hu
          rw [hc] at hσ
          cases hσ
          exact hv
        · cases hu
    · exact h.cells c' σ u hσ hu
  · simpa [World.writeCell] using h.cells_ge

theorem setItem (h : S.Fits w) {id : ListId} {position : Nat} (hid : S.lists[id]? = some τ)
    (hv : S.Admits τ v) : S.Fits (World.setItem id position v w).2 := by
  -- Whatever names the list, its elements have the one type that the typing gives it.
  refine ⟨⟨h.cells_le, ?_, h.cells, ?_⟩, h.cells_ge, ?_⟩
  · simpa [World.setItem] using h.lists_le
  · intro id' σ hσ u hu
    rcases Heap.mem_items_setItem hu with hold | ⟨rfl, rfl⟩
    · exact h.lists id' σ hσ u hold
    · rw [hid] at hσ
      cases hσ
      exact hv
  · simpa [World.setItem] using h.lists_ge

theorem emit (h : S.Fits w) (text : String) : S.Fits (World.emit text w).2 := by
  have hheap := World.emit_heap text w
  have hcells := World.emit_cells text w
  constructor
  · constructor
    · rw [hcells]; exact h.cells_le
    · rw [hheap]; exact h.lists_le
    · rw [hcells]; exact h.cells
    · rw [hheap]; exact h.lists
  · rw [hcells]; exact h.cells_ge
  · rw [hheap]; exact h.lists_ge

end Fits

end StoreTyping

end Eval

end DynImp
