import DynImp.Proofs.Heap.Containment
import Mathlib.Data.Finset.Card

/-!
# Acyclic heaps

A heap is acyclic if no list reaches itself through its elements.  Making a list keeps a
heap acyclic, and so does replacing an element, provided that the list is not contained in
the new element: this is what `Heap.contains?` is asked before.

In an acyclic heap every list has a rank that is above the ranks of its elements.  So
whatever follows a value into its lists comes to an end: printing, comparing and searching
all have an answer, which no larger bound on the depth changes.
-/

namespace DynImp

namespace Heap

/-! ## §1 Heaps -/

/-- **Acyclic heaps.** No list reaches itself. -/
def Acyclic (h : Heap) : Prop := ∀ a, ¬ h.Reaches a a

/-- A value that is no list, or a list of the heap. -/
def Holds (h : Heap) (v : Value) : Prop := ∀ id, v = .list id → id < h.lists.size

/-- **Closed heaps.** All elements of lists are lists of the heap, or no lists. -/
def Closed (h : Heap) : Prop := ∀ a, ∀ v ∈ h.items a, h.Holds v

instance (h : Heap) : (v : Value) → Decidable (h.Holds v)
  | .scalar _ => .isTrue (by simp [Holds])
  | .list id => decidable_of_iff (id < h.lists.size) (by simp [Holds])

theorem holds_scalar (h : Heap) (s : Scalar) : h.Holds (.scalar s) := fun _ h => by cases h

theorem Holds.mono {h h' : Heap} {v : Value} (hv : h.Holds v)
    (hsize : h.lists.size ≤ h'.lists.size) : h'.Holds v :=
  fun id hid => lt_of_lt_of_le (hv id hid) hsize

theorem items_of_size_le {h : Heap} {id : ListId} (hid : h.lists.size ≤ id) : h.items id = [] := by
  simp [items, Array.getD, Nat.not_lt.mpr hid]

theorem HasElement.lt {h : Heap} {a b : ListId} (hab : h.HasElement a b) : a < h.lists.size := by
  by_contra hle
  rw [HasElement, items_of_size_le (Nat.not_lt.mp hle)] at hab
  exact List.not_mem_nil hab

theorem empty_closed : Heap.empty.Closed := by
  intro a v hv
  rw [items_of_size_le (Nat.zero_le a)] at hv
  exact (List.not_mem_nil hv).elim

theorem empty_acyclic : Heap.empty.Acyclic := by
  intro a ha
  obtain ⟨b, hab, -⟩ := Relation.TransGen.head'_iff.mp ha
  exact Nat.not_lt_zero _ hab.lt

/-! ## §2 Making a list -/

@[simp] theorem size_alloc (h : Heap) (items : List Value) :
    (h.alloc items).2.lists.size = h.lists.size + 1 := by simp [alloc]

theorem items_alloc_of_lt {h : Heap} {items : List Value} {id : ListId}
    (hid : id < h.lists.size) : (h.alloc items).2.items id = h.items id := by
  simp [alloc, Heap.items, Array.getD, hid, Nat.lt_succ_of_lt hid, Array.getElem_push]

theorem items_alloc_self (h : Heap) (items : List Value) :
    (h.alloc items).2.items h.lists.size = items := by
  simp [alloc, Heap.items, Array.getD]

/-- The items of a list after another one was made are the ones it had, or those of the new one. -/
theorem mem_items_alloc {h : Heap} {items : List Value} {id : ListId} {v : Value}
    (hv : v ∈ (h.alloc items).2.items id) :
    v ∈ h.items id ∨ (id = h.lists.size ∧ v ∈ items) := by
  rcases Nat.lt_trichotomy id h.lists.size with hlt | rfl | hgt
  · rw [items_alloc_of_lt hlt] at hv
    exact Or.inl hv
  · rw [items_alloc_self] at hv
    exact Or.inr ⟨rfl, hv⟩
  · rw [items_of_size_le (by rw [size_alloc]; exact hgt)] at hv
    exact (List.not_mem_nil hv).elim

theorem Closed.alloc {h : Heap} {items : List Value} (hclosed : h.Closed)
    (hitems : ∀ v ∈ items, h.Holds v) : (h.alloc items).2.Closed := by
  intro a v hv
  have hsize : h.lists.size ≤ (h.alloc items).2.lists.size := by simp
  rcases mem_items_alloc hv with hv | ⟨-, hv⟩
  · exact (hclosed a v hv).mono hsize
  · exact (hitems v hv).mono hsize

theorem Acyclic.alloc {h : Heap} {items : List Value} (hacyclic : h.Acyclic) (hclosed : h.Closed)
    (hitems : ∀ v ∈ items, h.Holds v) : (h.alloc items).2.Acyclic := by
  -- No list contains the new one, so every path ends at an old list and runs among old lists.
  have helement : ∀ {a b}, (h.alloc items).2.HasElement a b → b < h.lists.size := by
    intro a b hab
    rcases mem_items_alloc hab with hab | ⟨-, hab⟩
    · exact hclosed a _ hab b rfl
    · exact hitems _ hab b rfl
  have hpath : ∀ {a b}, (h.alloc items).2.Reaches a b → a < h.lists.size → h.Reaches a b := by
    intro a b hab ha
    induction hab with
    | single hab =>
        rw [HasElement, items_alloc_of_lt ha] at hab
        exact .single hab
    | @tail b c hab hbc ih =>
        have hb : b < h.lists.size := by
          cases hab with
          | single hab => exact helement hab
          | tail _ hab => exact helement hab
        rw [HasElement, items_alloc_of_lt hb] at hbc
        exact ih.tail hbc
  intro a ha
  have hlt : a < h.lists.size := by
    obtain ⟨b, -, hba⟩ := Relation.TransGen.tail'_iff.mp ha
    exact helement hba
  exact hacyclic a (hpath ha hlt)

/-! ## §3 Replacing an element -/

@[simp] theorem size_setItem (h : Heap) (id : ListId) (position : Nat) (v : Value) :
    (h.setItem id position v).lists.size = h.lists.size := by simp [setItem]

theorem items_setItem (h : Heap) (id : ListId) (position : Nat) (v : Value) (a : ListId) :
    (h.setItem id position v).items a =
      if a = id then (h.items id).set position v else h.items a := by
  -- Beyond the last list there are no items, before and after.
  by_cases ha : a < h.lists.size
  · by_cases hid : a = id
    · subst hid
      simp [setItem, Heap.items, Array.getD, ha, Array.getElem_modify]
    · simp [setItem, Heap.items, Array.getD, ha, Array.getElem_modify, hid, Ne.symm hid]
  · have hle : h.lists.size ≤ a := Nat.not_lt.mp ha
    rw [items_of_size_le (by simpa using hle), items_of_size_le hle]
    split
    · next hid => rw [← hid, items_of_size_le hle]; rfl
    · rfl

theorem mem_items_setItem {h : Heap} {id : ListId} {position : Nat} {v : Value} {a : ListId}
    {u : Value} (hu : u ∈ (h.setItem id position v).items a) :
    u ∈ h.items a ∨ (a = id ∧ u = v) := by
  rw [items_setItem] at hu
  split at hu
  · next hid =>
      subst hid
      rcases List.mem_or_eq_of_mem_set hu with hu | hu
      · exact Or.inl hu
      · exact Or.inr ⟨rfl, hu⟩
  · exact Or.inl hu

theorem Closed.setItem {h : Heap} {id : ListId} {position : Nat} {v : Value} (hclosed : h.Closed)
    (hv : h.Holds v) : (h.setItem id position v).Closed := by
  intro a u hu
  have hsize : h.lists.size ≤ (h.setItem id position v).lists.size := by simp
  rcases mem_items_setItem hu with hu | ⟨-, rfl⟩
  · exact (hclosed a u hu).mono hsize
  · exact hv.mono hsize

/-- A path after an element was replaced either uses old elements only, or goes to the list and on
from the new element. -/
theorem Reaches.of_setItem {h : Heap} {id : ListId} {position : Nat} {v : Value} {a b : ListId}
    (hab : (h.setItem id position v).Reaches a b) :
    h.Reaches a b ∨ (h.Contains (.list a) id ∧ h.Contains v b) := by
  induction hab with
  | single hab =>
      rcases mem_items_setItem hab with hab | ⟨rfl, rfl⟩
      · exact Or.inl (.single hab)
      · exact Or.inr ⟨.self, .self⟩
  | tail _ hbd ih =>
      rcases mem_items_setItem hbd with hbd | ⟨rfl, rfl⟩
      · rcases ih with hab | ⟨ha, hb⟩
        · exact Or.inl (hab.tail hbd)
        · exact Or.inr ⟨ha, hb.trans (contains_list.mpr (Or.inr (.single hbd)))⟩
      · rcases ih with hab | ⟨ha, -⟩
        · exact Or.inr ⟨contains_list.mpr (Or.inr hab), .self⟩
        · exact Or.inr ⟨ha, .self⟩

/-- **Storing keeps a heap acyclic** if the new element does not contain the list it goes into. -/
theorem Acyclic.setItem {h : Heap} {id : ListId} {position : Nat} {v : Value}
    (hacyclic : h.Acyclic) (hnot : h.contains? v id = some false) :
    (h.setItem id position v).Acyclic := by
  intro a hcycle
  rcases Reaches.of_setItem hcycle with hold | ⟨hid, hv⟩
  · exact hacyclic a hold
  · -- The new element leads to `a` and `a` to the list, so the new element contains the list.
    exact Bool.false_ne_true ((eq_true_iff_of_containsWithin hnot).mpr (hv.trans hid))

/-! ## §4 Ranks -/

/-- **Ranks.** In an acyclic heap lists have ranks below the number of lists, and elements have
lower ranks than the lists that hold them: the number of lists that a list reaches. -/
theorem Acyclic.exists_rank {h : Heap} (hacyclic : h.Acyclic) (hclosed : h.Closed) :
    ∃ rank : ListId → Nat, (∀ a b, h.HasElement a b → rank b < rank a) ∧
      ∀ a, a < h.lists.size → rank a < h.lists.size := by
  classical
  let reached (a : ListId) : Finset ListId := (Finset.range h.lists.size).filter (h.Reaches a)
  refine ⟨fun a => (reached a).card, ?_, ?_⟩
  · intro a b hab
    -- The list reaches all that its element reaches, and the element besides.
    refine Finset.card_lt_card ((Finset.ssubset_iff_of_subset ?_).mpr ⟨b, ?_, ?_⟩)
    · intro c hc
      have hbc := (Finset.mem_filter.mp hc).2
      exact Finset.mem_filter.mpr ⟨(Finset.mem_filter.mp hc).1, .head hab hbc⟩
    · exact Finset.mem_filter.mpr ⟨Finset.mem_range.mpr (hclosed a _ hab b rfl), .single hab⟩
    · exact fun hb => hacyclic b (Finset.mem_filter.mp hb).2
  · intro a ha
    -- A list does not reach itself, so there is one that it does not reach.
    have hsub : reached a ⊂ Finset.range h.lists.size :=
      (Finset.ssubset_iff_of_subset (Finset.filter_subset _ _)).mpr
        ⟨a, Finset.mem_range.mpr ha, fun hmem => hacyclic a (Finset.mem_filter.mp hmem).2⟩
    simpa using Finset.card_lt_card hsub

/-! ## §5 Answers -/

/-- **Settled questions.** A question that is asked with a bound on the depth has an answer as soon
as the bound is not below `least`, and no larger bound changes it. -/
def Settled {α : Type} (least : Nat) (question : Nat → Option α) : Prop :=
  ∃ answer, ∀ bound, least ≤ bound → question bound = some answer

/-- A value whose lists have ranks below the bound. -/
def RankedBelow (rank : ListId → Nat) (bound : Nat) (v : Value) : Prop :=
  ∀ id, v = .list id → rank id < bound

private theorem Settled.const {α : Type} {least : Nat} {question : Nat → Option α} (answer : α)
    (hall : ∀ bound, question bound = some answer) : Settled least question :=
  ⟨answer, fun bound _ => hall bound⟩

/-- One level down: the bound is counted down with it. -/
private theorem Settled.succ {α : Type} {least : Nat} {question : Nat → Option α}
    (hstep : Settled least fun bound => question (bound + 1)) : Settled (least + 1) question := by
  obtain ⟨answer, hanswer⟩ := hstep
  refine ⟨answer, ?_⟩
  intro bound hbound
  obtain ⟨below, rfl⟩ : ∃ below, bound = below + 1 := ⟨bound - 1, by omega⟩
  exact hanswer below (Nat.le_of_succ_le_succ hbound)

private theorem settled_textsWith {least : Nat} {text : Nat → Value → Option String}
    {items : List Value} (htext : ∀ v ∈ items, Settled least fun bound => text bound v) :
    Settled least fun bound => textsWith (text bound) items := by
  induction items with
  | nil => exact .const [] fun _ => rfl
  | cons v rest ih =>
      obtain ⟨first, hfirst⟩ := htext v List.mem_cons_self
      obtain ⟨others, hothers⟩ := ih fun u hu => htext u (List.mem_cons_of_mem _ hu)
      refine ⟨first :: others, ?_⟩
      intro bound hbound
      simp only [textsWith, hfirst bound hbound, hothers bound hbound]

private theorem settled_anyOf {least : Nat} {test : Nat → Value → Option Bool}
    {items : List Value} (htest : ∀ v ∈ items, Settled least fun bound => test bound v) :
    Settled least fun bound => anyOf (test bound) items := by
  induction items with
  | nil => exact .const false fun _ => rfl
  | cons v rest ih =>
      obtain ⟨found, hfound⟩ := htest v List.mem_cons_self
      obtain ⟨later, hlater⟩ := ih fun u hu => htest u (List.mem_cons_of_mem _ hu)
      cases found with
      | true =>
          refine ⟨true, ?_⟩
          intro bound hbound
          simp only [anyOf, hfound bound hbound]
      | false =>
          refine ⟨later, ?_⟩
          intro bound hbound
          simp only [anyOf, hfound bound hbound, hlater bound hbound]

private theorem equalItems_congr {equal equal' : Value → Value → Option Bool}
    {as bs : List Value} (hequal : ∀ a ∈ as, ∀ b, equal a b = equal' a b) :
    equalItems equal as bs = equalItems equal' as bs := by
  induction as generalizing bs with
  | nil => cases bs <;> rfl
  | cons a as ih =>
      rw [List.forall_mem_cons] at hequal
      cases bs with
      | nil => rfl
      | cons b bs => rw [equalItems, equalItems, hequal.1 b, ih hequal.2]

private theorem settled_equalItems {least : Nat} {equal : Nat → Value → Value → Option Bool}
    {as bs : List Value}
    (hequal : ∀ a ∈ as, ∀ b, Settled least fun bound => equal bound a b) :
    Settled least fun bound => equalItems (equal bound) as bs := by
  induction as generalizing bs with
  | nil => cases bs with
    | nil => exact .const true fun _ => rfl
    | cons b bs => exact .const false fun _ => rfl
  | cons a as ih =>
      cases bs with
      | nil => exact .const false fun _ => rfl
      | cons b bs =>
          obtain ⟨same, hsame⟩ := hequal a List.mem_cons_self b
          obtain ⟨later, hlater⟩ := @ih bs fun u hu => hequal u (List.mem_cons_of_mem _ hu)
          cases same with
          | true =>
              refine ⟨later, ?_⟩
              intro bound hbound
              simp only [equalItems, hsame bound hbound, hlater bound hbound]
          | false =>
              refine ⟨false, ?_⟩
              intro bound hbound
              simp only [equalItems, hsame bound hbound]

section Ranked

variable {h : Heap} {rank : ListId → Nat} (hrank : ∀ a b, h.HasElement a b → rank b < rank a)

include hrank

private theorem rankedBelow_items {bound : Nat} {id : ListId} (hid : rank id < bound + 1) :
    ∀ v ∈ h.items id, RankedBelow rank bound v := by
  rintro _ hv b rfl
  exact lt_of_lt_of_le (hrank id b hv) (Nat.lt_succ_iff.mp hid)

private theorem settled_textWithin {least : Nat} {v : Value} (hv : RankedBelow rank least v) :
    Settled least fun bound => h.textWithin bound v := by
  cases v with
  | scalar s => exact .const s.text fun bound => by cases bound <;> rfl
  | list id =>
      induction least generalizing id with
      | zero => exact (Nat.not_lt_zero _ (hv id rfl)).elim
      | succ least ih =>
          have hitems : ∀ u ∈ h.items id, Settled least fun bound => h.textWithin bound u := by
            intro u hu
            -- The rank goes down with every level, as the bound does.
            have hbelow := rankedBelow_items hrank (hv id rfl) u hu
            cases u with
            | scalar s => exact .const s.text fun bound => by cases bound <;> rfl
            | list id' => exact ih id' hbelow
          obtain ⟨texts, htexts⟩ := settled_textsWith hitems
          refine Settled.succ ⟨"[" ++ ", ".intercalate texts ++ "]", ?_⟩
          intro bound hbound
          simp only [textWithin, htexts bound hbound, Option.map_some]

private theorem settled_containsWithin {target : ListId} {least : Nat} {v : Value}
    (hv : RankedBelow rank least v) :
    Settled least fun bound => h.containsWithin target bound v := by
  cases v with
  | scalar s => exact .const false fun bound => by cases bound <;> rfl
  | list id =>
      induction least generalizing id with
      | zero => exact (Nat.not_lt_zero _ (hv id rfl)).elim
      | succ least ih =>
          have hitems : ∀ u ∈ h.items id,
              Settled least fun bound => h.containsWithin target bound u := by
            intro u hu
            have hbelow := rankedBelow_items hrank (hv id rfl) u hu
            cases u with
            | scalar s => exact .const false fun bound => by cases bound <;> rfl
            | list id' => exact ih id' hbelow
          refine Settled.succ ?_
          simp only [containsWithin]
          split
          · exact .const true fun _ => rfl
          · exact settled_anyOf hitems

/-- Only the first of two values has to be ranked: the comparison follows both in step. -/
private theorem settled_equalWithin {least : Nat} {v u : Value} (hv : RankedBelow rank least v) :
    Settled least fun bound => h.equalWithin bound v u := by
  induction least generalizing v u with
  | zero =>
      cases v with
      | scalar s => cases u with
        | scalar t => exact .const (s.equal t) fun bound => by cases bound <;> rfl
        | list id => exact .const false fun bound => by cases bound <;> rfl
      | list id => exact (Nat.not_lt_zero _ (hv id rfl)).elim
  | succ least ih =>
      cases v with
      | scalar s => cases u with
        | scalar t => exact .const (s.equal t) fun bound => by cases bound <;> rfl
        | list id => exact .const false fun bound => by cases bound <;> rfl
      | list id =>
          cases u with
          | scalar t => exact .const false fun bound => by cases bound <;> rfl
          | list id' =>
              have hitems : ∀ a ∈ h.items id, ∀ b,
                  Settled least fun bound => h.equalWithin bound a b :=
                fun a ha b => ih (rankedBelow_items hrank (hv id rfl) a ha)
              exact Settled.succ (settled_equalItems hitems)

end Ranked

section Answers

variable {h : Heap} {v : Value} (hacyclic : h.Acyclic) (hclosed : h.Closed) (hv : h.Holds v)

include hacyclic hclosed hv

/-- **Text** of a value: there is one. -/
theorem Acyclic.settled_text : Settled h.lists.size fun bound => h.textWithin bound v := by
  obtain ⟨rank, hrank, hlt⟩ := hacyclic.exists_rank hclosed
  exact settled_textWithin hrank fun id hid => hlt id (hv id hid)

/-- **Equality** with any value is decided. -/
theorem Acyclic.settled_equal (u : Value) :
    Settled h.lists.size fun bound => h.equalWithin bound v u := by
  obtain ⟨rank, hrank, hlt⟩ := hacyclic.exists_rank hclosed
  exact settled_equalWithin hrank fun id hid => hlt id (hv id hid)

/-- **Searches** for any list end. -/
theorem Acyclic.settled_contains (target : ListId) :
    Settled h.lists.size fun bound => h.containsWithin target bound v := by
  obtain ⟨rank, hrank, hlt⟩ := hacyclic.exists_rank hclosed
  exact settled_containsWithin hrank fun id hid => hlt id (hv id hid)

/-- **Containment is decided** in an acyclic heap. -/
theorem Acyclic.exists_contains? (target : ListId) :
    ∃ found, h.contains? v target = some found ∧ (found = true ↔ h.Contains v target) := by
  obtain ⟨found, hanswer⟩ := hacyclic.settled_contains hclosed hv target
  have hfound := hanswer _ (le_refl _)
  exact ⟨found, hfound, eq_true_iff_of_containsWithin hfound⟩

end Answers

/-- **Lists are equal by their items**, which are compared as the lists themselves are. -/
theorem Acyclic.equal?_list {h : Heap} (hacyclic : h.Acyclic) (hclosed : h.Closed) {id : ListId}
    (hid : h.Holds (.list id)) (id' : ListId) :
    h.equal? (.list id) (.list id') = equalItems h.equal? (h.items id) (h.items id') := by
  obtain ⟨rank, hrank, hlt⟩ := hacyclic.exists_rank hclosed
  have hpos := hid id rfl
  obtain ⟨below, hsize⟩ := Nat.exists_eq_add_one.mpr (Nat.zero_lt_of_lt hpos)
  have hrankid := hlt id hpos
  rw [hsize] at hrankid
  -- The items have lower ranks, so one level less is enough for them.
  have hitems : ∀ a ∈ h.items id, ∀ b, h.equalWithin below a b = h.equal? a b := by
    intro a ha b
    obtain ⟨same, hsame⟩ :=
      settled_equalWithin hrank (u := b) (rankedBelow_items hrank hrankid a ha)
    exact (hsame below (Nat.le_refl below)).trans
      (hsame h.lists.size (hsize ▸ Nat.le_succ below)).symm
  rw [equal?, hsize, equalWithin]
  exact equalItems_congr hitems

end Heap

end DynImp
