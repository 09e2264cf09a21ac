import DynImp.Eval.Operators
import DynImp.Proofs.Heap.Equality
import Mathlib.Order.Std

/-!
# Equality and order agree

`==` and the order of values are computed in different ways.  In an acyclic heap they fit together.

* **Layer A: comparisons.** The values that are ordered, each kind by an order that is known to be
  one: integers, decimals by their numbers, characters by their numbers, and strings by those of
  their characters.
* **Layer B: operators.** What `==`, `<` and `>` answer.
* **Layer C: coherence.** All laws of equality and order in one structure.
-/

namespace DynImp

/-- Decimals are ordered as their numbers are. -/
instance : Std.TransCmp Decimal.compare where
  eq_swap := by
    intro a b
    rw [Decimal.compare_eq_compare_toRat, Decimal.compare_eq_compare_toRat]
    exact Std.OrientedCmp.eq_swap
  isLE_trans := by
    intro a b c
    simp only [Decimal.compare_eq_compare_toRat]
    exact Std.TransCmp.isLE_trans

/-- **Transitivity.** Of two comparisons that do not point in opposite directions, the first one
that is strict decides. -/
theorem compare_then {α : Type} {cmp : α → α → Ordering} [Std.TransCmp cmp] {a b c : α}
    (h : cmp a b = .eq ∨ cmp b c = .eq ∨ cmp a b = cmp b c) :
    cmp a c = (cmp a b).then (cmp b c) := by
  obtain hab | hbc | hsame := h
  · rw [hab, Std.TransCmp.congr_left hab, Ordering.then]
  · rw [hbc, ← Std.TransCmp.congr_right hbc, Ordering.then_eq]
  · cases hab : cmp a b with
    | lt => exact Std.TransCmp.lt_trans hab (hsame.symm.trans hab)
    | eq => rw [Std.TransCmp.congr_left hab, Ordering.then]
    | gt => exact Std.TransCmp.gt_trans hab (hsame.symm.trans hab)

namespace Eval

/-! ## §1 Comparisons -/

/-- **Comparisons.** Which values are ordered, and how. -/
inductive Compared : Value → Value → Ordering → Prop where
  | integer (i j : Int) : Compared (.integer i) (.integer j) (compare i j)
  | decimal (d e : Decimal) : Compared (.decimal d) (.decimal e) (d.compare e)
  | character (c d : Char) :
      Compared (.scalar (.character c)) (.scalar (.character d)) (compare c.toNat d.toNat)
  | string (s t : String) :
      Compared (.string s) (.string t) (compare (s.toList.map Char.toNat) (t.toList.map Char.toNat))

/-- The kinds of values that are ordered among their own kind. -/
def orderedTags : List Value.Tag := [.integer, .decimal, .character, .string]

variable {a b c : Value} {o o' : Ordering}

theorem order_eq_ok_iff : order a b = .ok o ↔ Compared a b o := by
  constructor
  · intro h
    cases a with
    | list => cases h
    | scalar s =>
        cases b with
        | list => cases h
        | scalar t => cases s <;> cases t <;> cases h <;> constructor
  · intro h
    cases h <;> rfl

namespace Compared

theorem swap (h : Compared a b o) : Compared b a o.swap := by
  cases h with
  | integer i j => rw [← Std.OrientedCmp.eq_swap]; exact .integer j i
  | decimal d e => rw [← Std.OrientedCmp.eq_swap]; exact .decimal e d
  | character c d => rw [← Std.OrientedCmp.eq_swap]; exact .character d c
  | string s t => rw [← Std.OrientedCmp.eq_swap]; exact .string t s

theorem equal_iff {s t : Scalar} (h : Compared (.scalar s) (.scalar t) o) :
    s.equal t = true ↔ o = .eq := by
  cases h with
  | integer i j => simp [Scalar.equal]
  | decimal d e => simp [Scalar.equal, Decimal.sameNumber]
  | character c d => simp [Scalar.equal, Char.toNat_inj]
  | string s t =>
      -- Strings are compared by the numbers of their characters, which tell the characters.
      rw [Std.LawfulEqCmp.compare_eq_iff_eq, List.map_inj_right fun _ _ => Char.toNat_inj.mp,
        String.toList_inj]
      simp [Scalar.equal]

theorem chain (h : Compared a b o) (h' : Compared b c o') (hsame : o = .eq ∨ o' = .eq ∨ o = o') :
    Compared a c (o.then o') := by
  cases h with
  | integer i j =>
      cases h' with
      | integer _ k => rw [← compare_then hsame]; exact .integer i k
  | decimal d e =>
      cases h' with
      | decimal _ f => rw [← compare_then hsame]; exact .decimal d f
  | character c d =>
      cases h' with
      | character _ e => rw [← compare_then hsame]; exact .character c e
  | string s t =>
      cases h' with
      | string _ u => rw [← compare_then hsame]; exact .string s u

theorem exists_iff : (∃ o, Compared a b o) ↔ a.tag = b.tag ∧ a.tag ∈ orderedTags := by
  constructor
  · rintro ⟨o, h⟩
    cases h <;> simp [Value.tag, orderedTags]
  · rintro ⟨htag, hordered⟩
    obtain ⟨s, rfl⟩ : ∃ s, a = .scalar s := by
      cases a with
      | scalar s => exact ⟨s, rfl⟩
      | list => exact absurd hordered (by simp [Value.tag, orderedTags])
    obtain ⟨t, rfl⟩ : ∃ t, b = .scalar t := by
      cases b with
      | scalar t => exact ⟨t, rfl⟩
      | list => cases s <;> cases htag
    -- For each kind of the first value, the tag leaves one kind for the second.
    cases s with
    | integer i =>
        cases t with
        | integer j => exact ⟨_, .integer i j⟩
        | _ => cases htag
    | decimal d =>
        cases t with
        | decimal e => exact ⟨_, .decimal d e⟩
        | _ => cases htag
    | character c =>
        cases t with
        | character d => exact ⟨_, .character c d⟩
        | _ => cases htag
    | string s =>
        cases t with
        | string t => exact ⟨_, .string s t⟩
        | _ => cases htag
    | nil | boolean => exact absurd hordered (by simp [Value.tag, orderedTags])

end Compared

/-! ## §2 Operators -/

/-- The operator answers with a truth value, and nothing else happens. -/
def Answers (w : World) (op : BinaryOp) (a b : Value) (truth : Bool) : Prop :=
  apply op a b w = (.done (.boolean truth), w)

variable {w : World} {truth : Bool}

theorem answers_equal_iff : Answers w .equal a b truth ↔ w.heap.equal? a b = some truth := by
  simp only [Answers, apply, Run.bind_apply, World.ask]
  cases w.heap.equal? a b with
  | none => simp
  | some same => simp [Run.pure_apply]

theorem answers_notEqual (h : w.heap.equal? a b = some truth) :
    Answers w .notEqual a b (!truth) := by
  simp only [Answers, apply, Run.bind_apply, World.ask, h, Run.pure_apply]

theorem answers_less (h : order a b = .ok o) : Answers w .less a b (o = .lt) := by
  simp only [Answers, apply, h, Run.ofExcept, Run.bind_apply, Run.pure_apply]

theorem answers_greater (h : order a b = .ok o) : Answers w .greater a b (o = .gt) := by
  simp only [Answers, apply, h, Run.ofExcept, Run.bind_apply, Run.pure_apply]

/-! ## §3 Coherence -/

/-- **Coherence.** The laws of equality and order in a world, for the values that its heap holds. -/
structure Coherent (w : World) : Prop where
  /-- Any two values are equal or not. -/
  decided : ∀ a b, w.heap.Holds a →
    ∃ same, Answers w .equal a b same ∧ Answers w .notEqual a b (!same)
  refl : ∀ a, w.heap.Holds a → Answers w .equal a a true
  symm : ∀ a b same, Answers w .equal a b same → Answers w .equal b a same
  trans : ∀ a b c, Answers w .equal a b true → Answers w .equal b c true →
    Answers w .equal a c true
  /-- Lists are equal if their items are, one by one, whichever lists they are. -/
  lists : ∀ id id', w.heap.Holds (.list id) → (Answers w .equal (.list id) (.list id') true ↔
    List.Forall₂ (fun a b => Answers w .equal a b true) (w.heap.items id) (w.heap.items id'))
  kinds : ∀ a b, Answers w .equal a b true → a.tag = b.tag
  /-- Integers, decimals, characters and strings are ordered among their own kind. -/
  ordered : ∀ a b, (∃ o, order a b = .ok o) ↔ a.tag = b.tag ∧ a.tag ∈ orderedTags
  /-- Decimals are ordered as numbers, whatever their scales are. -/
  numeric : ∀ d e : Decimal, order (.decimal d) (.decimal e) = .ok (compare d.toRat e.toRat)
  swap : ∀ a b o, order a b = .ok o → order b a = .ok o.swap
  /-- Of two comparisons that do not point in opposite directions, the first strict one decides. -/
  chain : ∀ a b c o o', order a b = .ok o → order b c = .ok o' → o = .eq ∨ o' = .eq ∨ o = o' →
    order a c = .ok (o.then o')
  agree : ∀ a b o, order a b = .ok o → (Answers w .equal a b true ↔ o = .eq)
  /-- Of two values that are ordered, exactly one is less, or they are equal. -/
  one : ∀ a b o, order a b = .ok o → ∃ less same greater, Answers w .less a b less ∧
    Answers w .equal a b same ∧ Answers w .greater a b greater ∧
    [less, same, greater].count true = 1

theorem equal?_of_order (h : order a b = .ok o) (heap : Heap) :
    heap.equal? a b = some (decide (o = .eq)) := by
  have hcompared := order_eq_ok_iff.mp h
  obtain ⟨s, rfl⟩ : ∃ s, a = .scalar s := by cases hcompared <;> exact ⟨_, rfl⟩
  obtain ⟨t, rfl⟩ : ∃ t, b = .scalar t := by cases hcompared <;> exact ⟨_, rfl⟩
  rw [Heap.equal?, Heap.equalWithin_scalar, Option.some.injEq, Bool.eq_iff_iff, decide_eq_true_eq]
  exact hcompared.equal_iff

/-- **Equality and order are coherent** in every world whose heap is closed and acyclic. -/
theorem coherent (hacyclic : w.heap.Acyclic) (hclosed : w.heap.Closed) : Coherent w where
  decided a b ha := by
    obtain ⟨same, hsame⟩ := hacyclic.settled_equal hclosed ha b
    have h := hsame w.heap.lists.size (Nat.le_refl _)
    exact ⟨same, answers_equal_iff.mpr h, answers_notEqual h⟩
  refl a ha := answers_equal_iff.mpr (hacyclic.equal?_self hclosed ha)
  symm a b same h := by
    rw [answers_equal_iff] at *
    rwa [Heap.equal?, Heap.equalWithin_comm]
  trans a b c hab hbc := by
    rw [answers_equal_iff] at *
    exact Heap.equalWithin_trans hab hbc
  lists id id' hid := by
    simp only [answers_equal_iff]
    rw [hacyclic.equal?_list hclosed hid, Heap.equalItems_eq_true_iff]
  kinds a b h := Heap.tag_eq_of_equalWithin (answers_equal_iff.mp h)
  ordered a b := by
    simp only [order_eq_ok_iff]
    exact Compared.exists_iff
  numeric d e := by
    rw [order_eq_ok_iff, ← Decimal.compare_eq_compare_toRat]
    exact .decimal d e
  swap a b o h := by
    rw [order_eq_ok_iff] at *
    exact h.swap
  chain a b c o o' hab hbc hsame := by
    rw [order_eq_ok_iff] at *
    exact hab.chain hbc hsame
  agree a b o h := by
    rw [answers_equal_iff, equal?_of_order h, Option.some.injEq, decide_eq_true_eq]
  one a b o h := by
    refine ⟨_, _, _, answers_less h, answers_equal_iff.mpr (equal?_of_order h _),
      answers_greater h, ?_⟩
    -- The three answers are read off the one comparison.
    cases o <;> rfl

/-- A world with the lists `[1.5]`, `[1.50]`, one that has the first of them twice, and one that has
both. -/
def twins : World :=
  ⟨⟨#[[.decimal ⟨15, 1⟩], [.decimal ⟨150, 2⟩], [.list 0, .list 0], [.list 0, .list 1]]⟩, #[],
    .recording⟩

theorem twins_coherent :
    Coherent twins ∧ Answers twins .equal (.list 2) (.list 3) true ∧
      order (.decimal ⟨15, 1⟩) (.decimal ⟨150, 2⟩) = .ok .eq := by
  have halloc : ∀ {h : Heap} (items), h.Acyclic ∧ h.Closed → (∀ v ∈ items, h.Holds v) →
      (h.alloc items).2.Acyclic ∧ (h.alloc items).2.Closed :=
    fun _ hh hitems => ⟨hh.1.alloc hh.2 hitems, hh.2.alloc hitems⟩
  have hempty : Heap.empty.Acyclic ∧ Heap.empty.Closed := ⟨Heap.empty_acyclic, Heap.empty_closed⟩
  have hfirst := halloc [.decimal ⟨15, 1⟩] hempty (by decide)
  have hsecond := halloc [.decimal ⟨150, 2⟩] hfirst (by decide)
  have hthird := halloc [.list 0, .list 0] hsecond (by decide)
  have hfourth := halloc [.list 0, .list 1] hthird (by decide)
  exact ⟨coherent (w := twins) hfourth.1 hfourth.2, rfl, rfl⟩

end Eval

end DynImp
