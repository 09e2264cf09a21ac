import DynImp.Heap
import Mathlib.Logic.Relation

/-!
# Containment

A value contains a list if it is that list, or a list that leads to it through elements,
elements of elements, and so on.  A search for the list goes through the elements in order and
through a list again wherever it meets it again.

* **Layer A: elements** and the paths that they make.
* **Layer B: searches.** How a search goes, without a bound on the depth.  An answer of
  `Heap.contains?` is the end of one, and every search that ends does so within some bound.
* **Layer C: answers** are right, in any heap: a positive one was found on a path, a negative one
  came after all paths were followed.
-/

namespace DynImp

namespace Heap

variable {h : Heap} {v : Value} {target : ListId} {bound : Nat} {found : Bool}

/-! ## §1 Elements -/

/-- The list `b` is an element of the list `a`. -/
def HasElement (h : Heap) (a b : ListId) : Prop := Value.list b ∈ h.items a

/-- `b` is an element of `a`, or of an element of `a`, and so on. -/
abbrev Reaches (h : Heap) : ListId → ListId → Prop := Relation.TransGen h.HasElement

/-- **Containment.** The value is the list, or a list that reaches it. -/
def Contains (h : Heap) (v : Value) (target : ListId) : Prop :=
  ∃ a, v = .list a ∧ (a = target ∨ h.Reaches a target)

theorem not_contains_scalar (s : Scalar) : ¬ h.Contains (.scalar s) target := by
  rintro ⟨a, ha, -⟩
  cases ha

@[simp] theorem contains_list {a : ListId} :
    h.Contains (.list a) target ↔ a = target ∨ h.Reaches a target := by
  constructor
  · rintro ⟨b, hb, hreach⟩
    cases hb
    exact hreach
  · intro hreach
    exact ⟨a, rfl, hreach⟩

/-- A value contains the lists that a path of elements leads to, the empty path included. -/
theorem contains_iff_path :
    h.Contains v target ↔ ∃ id, v = .list id ∧ Relation.ReflTransGen h.HasElement id target := by
  simp only [Contains, Reaches, Relation.reflTransGen_iff_eq_or_transGen, eq_comm]

theorem Contains.self : h.Contains (.list target) target := contains_list.mpr (Or.inl rfl)

theorem Contains.trans {a : ListId} (hv : h.Contains v a) (ha : h.Contains (.list a) target) :
    h.Contains v target := by
  rw [contains_iff_path] at *
  obtain ⟨b, rfl, hba⟩ := hv
  obtain ⟨_, ⟨⟩, hpath⟩ := ha
  exact ⟨b, rfl, hba.trans hpath⟩

/-- A list contains another one if one of its elements does. -/
theorem contains_list_iff_items {a : ListId} :
    h.Contains (.list a) target ↔ a = target ∨ ∃ v ∈ h.items a, h.Contains v target := by
  rw [contains_list]
  apply or_congr_right
  constructor
  · intro hreach
    obtain ⟨b, hab, hpath⟩ := Relation.TransGen.head'_iff.mp hreach
    exact ⟨.list b, hab, contains_iff_path.mpr ⟨b, rfl, hpath⟩⟩
  · rintro ⟨v, hv, hcontains⟩
    obtain ⟨b, rfl, hpath⟩ := contains_iff_path.mp hcontains
    exact Relation.TransGen.head' hv hpath

/-! ## §2 Searches -/

/-- **Searches.** The search for a list in a value ends with this answer.  A search without an end
has no derivation. -/
inductive Searches (h : Heap) (target : ListId) : Value → Bool → Prop where
  | scalar (s : Scalar) : h.Searches target (.scalar s) false
  | self : h.Searches target (.list target) true
  /-- The first element that contains the list ends the search. -/
  | hit {id : ListId} {before after : List Value} {u : Value} (hne : id ≠ target)
      (hitems : h.items id = before ++ u :: after)
      (hbefore : ∀ w ∈ before, h.Searches target w false) (hu : h.Searches target u true) :
      h.Searches target (.list id) true
  | miss {id : ListId} (hne : id ≠ target) (hitems : ∀ u ∈ h.items id, h.Searches target u false) :
      h.Searches target (.list id) false

theorem exists_of_anyOf_eq_true {test : Value → Option Bool} {items : List Value}
    (hany : anyOf test items = some true) : ∃ before u after, items = before ++ u :: after ∧
      (∀ w ∈ before, test w = some false) ∧ test u = some true := by
  induction items with
  | nil => cases hany
  | cons v rest ih =>
      rw [anyOf] at hany
      cases hv : test v with
      | none => rw [hv] at hany; cases hany
      | some found =>
          cases found with
          | true => exact ⟨[], v, rest, rfl, fun _ hw => (List.not_mem_nil hw).elim, hv⟩
          | false =>
              rw [hv] at hany
              obtain ⟨before, u, after, rfl, hbefore, hu⟩ := ih hany
              exact ⟨v :: before, u, after, rfl, List.forall_mem_cons.mpr ⟨hv, hbefore⟩, hu⟩

/-- A list that was searched for in vain among values is in none of them. -/
theorem anyOf_eq_false {test : Value → Option Bool} {items : List Value}
    (hany : anyOf test items = some false) : ∀ v ∈ items, test v = some false := by
  induction items with
  | nil => exact fun _ hv => (List.not_mem_nil hv).elim
  | cons u rest ih =>
      rw [anyOf] at hany
      cases hu : test u with
      | none => rw [hu] at hany; cases hany
      | some found =>
          rw [hu] at hany
          cases found with
          | true => cases hany
          | false =>
              intro v hv
              rcases List.mem_cons.mp hv with rfl | hv
              · exact hu
              · exact ih hany v hv

theorem anyOf_append_hit {test : Value → Option Bool} {before after : List Value} {u : Value}
    (hbefore : ∀ w ∈ before, test w = some false) (hu : test u = some true) :
    anyOf test (before ++ u :: after) = some true := by
  induction before with
  | nil => rw [List.nil_append, anyOf, hu]
  | cons v before ih =>
      rw [List.forall_mem_cons] at hbefore
      rw [List.cons_append, anyOf, hbefore.1]
      exact ih hbefore.2

theorem anyOf_miss {test : Value → Option Bool} {items : List Value}
    (hitems : ∀ u ∈ items, test u = some false) : anyOf test items = some false := by
  induction items with
  | nil => rfl
  | cons v rest ih =>
      rw [List.forall_mem_cons] at hitems
      rw [anyOf, hitems.1]
      exact ih hitems.2

/-- **An answer is the end of a search**, whatever bound was enough for it. -/
theorem searches_of_containsWithin (hanswer : h.containsWithin target bound v = some found) :
    h.Searches target v found := by
  induction bound generalizing v found with
  | zero =>
      cases v with
      | scalar s => cases hanswer; exact .scalar s
      | list id => cases hanswer
  | succ bound ih =>
      cases v with
      | scalar s => cases hanswer; exact .scalar s
      | list id =>
          rw [containsWithin] at hanswer
          split at hanswer
          · next hid =>
              subst hid
              cases hanswer
              exact .self
          · next hne =>
              cases found with
              | true =>
                  obtain ⟨before, u, after, hitems, hbefore, hu⟩ := exists_of_anyOf_eq_true hanswer
                  exact .hit hne hitems (fun w hw => ih (hbefore w hw)) (ih hu)
              | false => exact .miss hne fun u hu => ih (anyOf_eq_false hanswer u hu)

/-- Elements that each have a bound have one in common. -/
private theorem exists_common_bound {items : List Value} (hitems : ∀ u ∈ items, ∃ least,
      ∀ bound, least ≤ bound → h.containsWithin target bound u = some false) :
    ∃ least, ∀ bound, least ≤ bound → ∀ u ∈ items,
      h.containsWithin target bound u = some false := by
  induction items with
  | nil => exact ⟨0, fun _ _ _ hu => (List.not_mem_nil hu).elim⟩
  | cons v rest ih =>
      rw [List.forall_mem_cons] at hitems
      obtain ⟨⟨first, hfirst⟩, hrest⟩ := hitems
      obtain ⟨others, hothers⟩ := ih hrest
      refine ⟨max first others, ?_⟩
      intro bound hbound
      obtain ⟨hle, hle'⟩ := Nat.max_le.mp hbound
      exact List.forall_mem_cons.mpr ⟨hfirst bound hle, hothers bound hle'⟩

/-- One level more than the elements need is enough for the list. -/
private theorem exists_bound_of_items {id : ListId} (hne : id ≠ target) (least : Nat)
    (hany : ∀ bound, least ≤ bound →
      anyOf (h.containsWithin target bound) (h.items id) = some found) :
    ∃ least, ∀ bound, least ≤ bound → h.containsWithin target bound (.list id) = some found := by
  refine ⟨least + 1, ?_⟩
  intro bound hbound
  obtain ⟨below, rfl⟩ := Nat.exists_eq_add_of_lt hbound
  rw [containsWithin, if_neg hne]
  exact hany _ (Nat.le_add_right _ _)

/-- **A search that ends** does so within some bound, and larger bounds do not change its answer. -/
theorem Searches.exists_bound (hsearch : h.Searches target v found) :
    ∃ least, ∀ bound, least ≤ bound → h.containsWithin target bound v = some found := by
  induction hsearch with
  | scalar s => exact ⟨0, fun bound _ => by cases bound <;> rfl⟩
  | self =>
      refine ⟨1, ?_⟩
      intro bound hbound
      obtain ⟨below, rfl⟩ := Nat.exists_eq_add_of_lt hbound
      rw [containsWithin, if_pos rfl]
  | hit hne hitems _ _ hbefore hu =>
      obtain ⟨least, hleast⟩ := exists_common_bound hbefore
      obtain ⟨least', hleast'⟩ := hu
      apply exists_bound_of_items hne (max least least')
      intro bound hbound
      obtain ⟨hle, hle'⟩ := Nat.max_le.mp hbound
      rw [hitems]
      exact anyOf_append_hit (hleast bound hle) (hleast' bound hle')
  | miss hne _ hitems =>
      obtain ⟨least, hleast⟩ := exists_common_bound hitems
      apply exists_bound_of_items hne least
      intro bound hbound
      exact anyOf_miss (hleast bound hbound)

/-! ## §3 Answers are right -/

/-- **The end of a search is right**, in whatever heap. -/
theorem Searches.eq_true_iff (hsearch : h.Searches target v found) :
    found = true ↔ h.Contains v target := by
  induction hsearch with
  | scalar s => exact iff_of_false nofun (not_contains_scalar s)
  | self => exact iff_of_true rfl .self
  | hit _ hitems _ _ _ hu =>
      apply iff_of_true rfl
      rw [contains_list_iff_items, hitems]
      exact Or.inr ⟨_, List.mem_append_right _ List.mem_cons_self, hu.mp rfl⟩
  | miss hne _ hitems =>
      apply iff_of_false nofun
      rw [contains_list_iff_items]
      rintro (hid | ⟨u, hu, hcontains⟩)
      · exact hne hid
      · exact Bool.false_ne_true ((hitems u hu).mpr hcontains)

/-- **Any answer is right.** -/
theorem eq_true_iff_of_containsWithin (hanswer : h.containsWithin target bound v = some found) :
    found = true ↔ h.Contains v target :=
  (searches_of_containsWithin hanswer).eq_true_iff

end Heap

end DynImp
