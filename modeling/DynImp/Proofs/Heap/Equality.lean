import DynImp.Proofs.Decimal.Number
import DynImp.Proofs.Heap.Acyclic
import Mathlib.Data.List.Forall2

/-!
# Equality of values

Two values are equal as far as a bound on the depth can tell if their contents agree to that
depth.

* **Layer A: scalars.** They are equal if they are one and the same, or decimals for one number.
* **Layer B: depths.** To any depth, in any heap, equality is symmetric and transitive and does not
  mix kinds.
* **Layer C: acyclic heaps.** Where no list contains itself, every value is equal to itself, and
  lists are equal if their items are, without a bound.
-/

namespace DynImp

/-! ## §1 Scalars -/

namespace Scalar

theorem equal_iff {s t : Scalar} :
    s.equal t = true ↔
      s = t ∨ ∃ d e, s = .decimal d ∧ t = .decimal e ∧ d.toRat = e.toRat := by
  cases s with
  | decimal d =>
      cases t with
      | decimal e =>
          rw [equal, Decimal.sameNumber_iff]
          constructor
          · exact fun heq => .inr ⟨d, e, rfl, rfl, heq⟩
          · rintro (heq | ⟨_, _, ⟨⟩, ⟨⟩, heq⟩)
            · cases heq
              rfl
            · exact heq
      | _ => simp [equal]
  | _ => cases t <;> simp [equal]

theorem equal_self (s : Scalar) : s.equal s = true := equal_iff.mpr (.inl rfl)

theorem equal_symm {s t : Scalar} (h : s.equal t = true) : t.equal s = true := by
  obtain rfl | ⟨d, e, rfl, rfl, heq⟩ := equal_iff.mp h
  · exact h
  · exact equal_iff.mpr (.inr ⟨e, d, rfl, rfl, heq.symm⟩)

theorem equal_comm (s t : Scalar) : s.equal t = t.equal s :=
  Bool.eq_iff_iff.mpr ⟨equal_symm, equal_symm⟩

theorem equal_trans {s t u : Scalar} (h : s.equal t = true) (h' : t.equal u = true) :
    s.equal u = true := by
  obtain rfl | ⟨d, e, rfl, rfl, heq⟩ := equal_iff.mp h
  · exact h'
  obtain rfl | ⟨e', f, he, rfl, heq'⟩ := equal_iff.mp h'
  · exact h
  · cases he
    exact equal_iff.mpr (.inr ⟨d, f, rfl, rfl, heq.trans heq'⟩)

theorem tag_eq_of_equal {s t : Scalar} (h : s.equal t = true) :
    (Value.scalar s).tag = (Value.scalar t).tag := by
  obtain rfl | ⟨d, e, rfl, rfl, -⟩ := equal_iff.mp h <;> rfl

end Scalar

namespace Heap

/-! ## §2 Depths -/

theorem equalItems_eq_true_iff {equal : Value → Value → Option Bool} {as bs : List Value} :
    equalItems equal as bs = some true ↔ List.Forall₂ (fun a b => equal a b = some true) as bs := by
  induction as generalizing bs with
  | nil => cases bs <;> simp [equalItems]
  | cons a as ih =>
      cases bs with
      | nil => simp [equalItems]
      | cons b bs =>
          rw [equalItems, List.forall₂_cons, ← ih]
          cases equal a b with
          | none => simp
          | some same => cases same <;> simp

/-- Each item of a list has an equal one in every list that is equal to it. -/
theorem exists_equal_item {equal : Value → Value → Option Bool} {as bs : List Value}
    (hequal : equalItems equal as bs = some true) {a : Value} (ha : a ∈ as) :
    ∃ b ∈ bs, equal a b = some true := by
  rw [equalItems_eq_true_iff] at hequal
  induction hequal with
  | nil => cases ha
  | cons hab _ ih =>
      rcases List.mem_cons.mp ha with rfl | ha
      · exact ⟨_, List.mem_cons_self, hab⟩
      · obtain ⟨b, hb, hequal⟩ := ih ha
        exact ⟨b, List.mem_cons_of_mem _ hb, hequal⟩

theorem equalItems_comm {equal : Value → Value → Option Bool}
    (hcomm : ∀ a b, equal a b = equal b a) (as bs : List Value) :
    equalItems equal as bs = equalItems equal bs as := by
  induction as generalizing bs with
  | nil => cases bs <;> rfl
  | cons a as ih =>
      cases bs with
      | nil => rfl
      | cons b bs => rw [equalItems, equalItems, hcomm, ih]

theorem equalItems_trans {equal : Value → Value → Option Bool}
    (htrans : ∀ a b c, equal a b = some true → equal b c = some true → equal a c = some true)
    {as bs cs : List Value} (h : equalItems equal as bs = some true)
    (h' : equalItems equal bs cs = some true) : equalItems equal as cs = some true := by
  rw [equalItems_eq_true_iff] at *
  induction h generalizing cs with
  | nil => exact h'
  | cons hab _ ih =>
      cases h' with
      | cons hbc hothers => exact .cons (htrans _ _ _ hab hbc) (ih hothers)

variable {h : Heap} {a b c : Value}

theorem equalWithin_scalar (bound : Nat) (s t : Scalar) :
    h.equalWithin bound (.scalar s) (.scalar t) = some (s.equal t) := by
  cases bound <;> rfl

theorem equalWithin_comm (bound : Nat) (a b : Value) :
    h.equalWithin bound a b = h.equalWithin bound b a := by
  induction bound generalizing a b with
  | zero => cases a <;> cases b <;> simp [equalWithin, Scalar.equal_comm]
  | succ bound ih =>
      cases a <;> cases b <;> simp [equalWithin, Scalar.equal_comm, equalItems_comm ih]

/-- Equal values are equal scalars, or lists with equal items one level down. -/
theorem equalWithin_cases {bound : Nat} (hab : h.equalWithin bound a b = some true) :
    (∃ s t, a = .scalar s ∧ b = .scalar t ∧ s.equal t = true) ∨
      ∃ below id id', bound = below + 1 ∧ a = .list id ∧ b = .list id' ∧
        equalItems (h.equalWithin below) (h.items id) (h.items id') = some true := by
  cases a with
  | scalar s =>
      cases b with
      | scalar t =>
          rw [equalWithin_scalar] at hab
          exact .inl ⟨s, t, rfl, rfl, Option.some.inj hab⟩
      | list => cases bound <;> cases hab
  | list id =>
      cases b with
      | scalar => cases bound <;> cases hab
      | list id' =>
          cases bound with
          | zero => cases hab
          | succ below => exact .inr ⟨below, id, id', rfl, rfl, rfl, hab⟩

theorem equalWithin_trans {bound : Nat} (hab : h.equalWithin bound a b = some true)
    (hbc : h.equalWithin bound b c = some true) : h.equalWithin bound a c = some true := by
  induction bound generalizing a b c with
  | zero =>
      obtain ⟨s, t, rfl, rfl, hst⟩ | ⟨_, _, _, ⟨⟩, -⟩ := equalWithin_cases hab
      obtain ⟨_, u, ⟨⟩, rfl, htu⟩ | ⟨_, _, _, ⟨⟩, -⟩ := equalWithin_cases hbc
      rw [equalWithin_scalar, Scalar.equal_trans hst htu]
  | succ bound ih =>
      obtain ⟨s, t, rfl, rfl, hst⟩ | ⟨_, id, id', ⟨⟩, rfl, rfl, hitems⟩ := equalWithin_cases hab
      · obtain ⟨_, u, ⟨⟩, rfl, htu⟩ | ⟨_, _, _, _, ⟨⟩, -⟩ := equalWithin_cases hbc
        rw [equalWithin_scalar, Scalar.equal_trans hst htu]
      · -- All three are lists, whose items are compared one level down.
        obtain ⟨_, _, ⟨⟩, -⟩ | ⟨_, _, id'', ⟨⟩, ⟨⟩, rfl, hitems'⟩ := equalWithin_cases hbc
        exact equalItems_trans (fun a b c => @ih a b c) hitems hitems'

/-- What is equal to a list is a list. -/
theorem exists_list_of_equal? {id : ListId} (hequal : h.equal? (.list id) a = some true) :
    ∃ id', a = .list id' := by
  obtain ⟨_, _, ⟨⟩, -⟩ | ⟨_, _, id', -, -, rfl, -⟩ := equalWithin_cases hequal
  exact ⟨id', rfl⟩

theorem tag_eq_of_equalWithin {bound : Nat} (hab : h.equalWithin bound a b = some true) :
    a.tag = b.tag := by
  obtain ⟨s, t, rfl, rfl, hst⟩ | ⟨_, _, _, -, rfl, rfl, -⟩ := equalWithin_cases hab
  · exact Scalar.tag_eq_of_equal hst
  · rfl

/-! ## §3 Acyclic heaps -/

/-- **Reflexivity.** The items of a list are equal to themselves by induction on the rank. -/
theorem Acyclic.equal?_self {v : Value} (hacyclic : h.Acyclic) (hclosed : h.Closed)
    (hv : h.Holds v) : h.equal? v v = some true := by
  obtain ⟨rank, hrank, -⟩ := hacyclic.exists_rank hclosed
  have hscalar : ∀ s : Scalar, h.equal? (.scalar s) (.scalar s) = some true := fun s => by
    rw [equal?, equalWithin_scalar, Scalar.equal_self]
  cases v with
  | scalar s => exact hscalar s
  | list id =>
      induction hid : rank id using Nat.strongRecOn generalizing id with
      | ind n ih =>
          rw [hacyclic.equal?_list hclosed hv, equalItems_eq_true_iff, List.forall₂_same]
          intro item hitem
          cases item with
          | scalar s => exact hscalar s
          | list id' =>
              exact ih (rank id') (hid ▸ hrank id id' hitem) id' (hclosed id _ hitem) rfl

end Heap

end DynImp
