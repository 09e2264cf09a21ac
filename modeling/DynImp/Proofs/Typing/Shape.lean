import DynImp.Proofs.Typing.Rejection

/-!
# Faults of shape

Two faults of the checker are about the shape of a tree and not about its types: a list
literal without items, and a case without a value before the last one.  A tree without
either is never rejected for them.
-/

namespace DynImp

variable {ν : Notes}

/-! ## §1 Shapes -/

/-- Among the expressions is no list literal without items. -/
def Expr.NoEmptyList (es : List (Expr ν)) : Prop := ∀ o τ, .list o τ [] ∉ es

theorem Expr.NoEmptyList.of_subset {es fs : List (Expr ν)} (h : NoEmptyList fs) (hes : es ⊆ fs) :
    NoEmptyList es :=
  fun o τ hmem => h o τ (hes hmem)

/-- **Closed cases.** The last case has no value, and all others have one. -/
def Case.Closed (cases : List (Case ν)) : Prop :=
  ∃ valued o body, cases = valued ++ [.mk o none body] ∧ ∀ c ∈ valued, c.value.isSome

theorem Case.closed_iff {cases : List (Case ν)} :
    (cases.getLast?.any (·.value.isNone) = true ∧ ∀ c ∈ cases.dropLast, c.value.isSome) ↔
      Closed cases := by
  constructor
  · rintro ⟨hlast, hvalued⟩
    obtain ⟨c, hc, hnone⟩ := (Option.any_eq_true _ _).mp hlast
    obtain ⟨o, value, body⟩ := c
    obtain rfl : value = none := Option.isNone_iff_eq_none.mp hnone
    obtain ⟨valued, rfl⟩ := List.getLast?_eq_some_iff.mp hc
    rw [List.dropLast_concat] at hvalued
    exact ⟨valued, o, body, rfl, hvalued⟩
  · rintro ⟨valued, o, body, rfl, hvalued⟩
    rw [List.getLast?_concat, List.dropLast_concat]
    exact ⟨rfl, hvalued⟩

instance (cases : List (Case ν)) : Decidable (Case.Closed cases) :=
  decidable_of_iff _ Case.closed_iff

/-- Among the statements every `SWITCH` has closed cases. -/
def Stmt.ClosedCases (block : List (Stmt ν)) : Prop :=
  ∀ subject cases, .switch subject cases ∈ block → Case.Closed cases

theorem Stmt.ClosedCases.of_subset {block others : List (Stmt ν)} (h : ClosedCases others)
    (hblock : block ⊆ others) : ClosedCases block :=
  fun subject cases hmem => h subject cases (hblock hmem)

namespace Typing

/-! ## §2 Results -/

end Typing

open Typing

/-! ## §3 Nodes -/

/-- A case without a value stands last in closed cases. -/
theorem Case.not_closed {before : List (Case ν)} {o : Nat} {body : List (Stmt ν)} {c : Case ν}
    {after : List (Case ν)} : ¬ Closed (before ++ .mk o none body :: c :: after) := by
  intro h
  have hvalued := (closed_iff.mpr h).2
  rw [List.dropLast_append_cons, List.dropLast_cons_cons] at hvalued
  have hsome := hvalued (.mk o none body) (by simp)
  cases hsome

end DynImp
