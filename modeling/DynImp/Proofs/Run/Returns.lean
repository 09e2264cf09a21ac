import DynImp.Eval.Exec
import DynImp.Proofs.Eval.Still
import DynImp.Proofs.Typing.Rules

/-!
# Bodies that return

A body with a `RETURN` on all paths never falls off its end, whatever its values are.
-/

namespace DynImp

namespace Eval

variable {ν : Notes} {d : Discipline ν}

theorem Run.inBlock_done {α : Type} {x : Run (Machine ν) α} {m : Machine ν} {a : α}
    (h : (Machine.inBlock x m).1 = .done a) : (x ⟨m.scope.push, m.world⟩).1 = .done a := h

theorem Run.inWorld_done {α : Type} {x : RuntimeScope ν → Run World α} {m : Machine ν} {a : α}
    (h : (Machine.inWorld x m).1 = .done a) : (x m.scope m.world).1 = .done a := h

theorem Run.within_done {α : Type} {scope : RuntimeScope ν} {x : Run (Machine ν) α} {w : World}
    {a : α} (h : (Machine.within scope x w).1 = .done a) : (x ⟨scope, w⟩).1 = .done a := h

/-- Cases with a default always choose a block, and one that returns if all do. -/
theorem select_returns {n : Nat} {scope : RuntimeScope ν} {v : Value} {cases : List (Case ν)}
    {w : World} {body : Option (List (Stmt ν))} (hreturns : Stmt.casesReturn cases = true)
    (h : (select d n scope v cases w).1 = .done body) :
    ∃ b, body = some b ∧ Stmt.blockReturns b = true := by
  induction n generalizing cases w with
  | zero => cases h
  | succ n ih =>
      rcases cases with _ | ⟨⟨o, _ | value, block⟩, rest⟩
      · cases hreturns
      · rw [select] at h
        cases h
        exact ⟨block, rfl, hreturns⟩
      · rw [Stmt.casesReturn, Bool.and_eq_true] at hreturns
        rw [select] at h
        obtain ⟨u, -, h⟩ := Run.bind_done h
        obtain ⟨same, -, h⟩ := Run.bind_done h
        cases same with
        | true =>
            cases h
            exact ⟨block, rfl, hreturns.1⟩
        | false => exact ih hreturns.2 h

/-- **Returning.** Statements and blocks that return do not end otherwise. -/
theorem exec_returns (n : Nat) :
    (∀ {s : Stmt ν} {m flow}, s.returns = true → (exec d n s m).1 = .done flow →
      ∃ v, flow = .returned v) ∧
    ∀ {body : List (Stmt ν)} {m flow}, Stmt.blockReturns body = true →
      (execAll d n body m).1 = .done flow → ∃ v, flow = .returned v := by
  induction n with
  | zero =>
      constructor
      · intro s m flow _ h
        cases h
      · intro body m flow _ h
        cases h
  | succ n ih =>
      obtain ⟨ihs, ihb⟩ := ih
      constructor
      · intro s m flow hreturns h
        cases s with
        | giveBack value =>
            rw [exec] at h
            obtain ⟨v, -, h⟩ := Run.bind_done h
            cases h
            exact ⟨v, rfl⟩
        | choose condition yes no =>
            rw [Stmt.returns, Bool.and_eq_true] at hreturns
            rw [exec] at h
            obtain ⟨b, -, h⟩ := Run.bind_done h
            cases b with
            | true => exact ihb hreturns.1 (Run.inBlock_done h)
            | false => exact ihb hreturns.2 (Run.inBlock_done h)
        | switch subject cases =>
            rw [Stmt.returns] at hreturns
            rw [exec] at h
            obtain ⟨body, hbody, h⟩ := Run.bind_done h
            obtain ⟨v, -, hselect⟩ := Run.bind_done (Run.inWorld_done hbody)
            obtain ⟨block, rfl, hblock⟩ := select_returns hreturns hselect
            exact ihb hblock (Run.inBlock_done h)
        | perform | declare | assign | loop => cases hreturns
      · intro body m flow hreturns h
        cases body with
        | nil => cases hreturns
        | cons s rest =>
            rw [Stmt.blockReturns, Bool.or_eq_true] at hreturns
            rw [execAll] at h
            obtain ⟨first, hfirst, h⟩ := Run.bind_done h
            cases first with
            | returned v =>
                cases h
                exact ⟨v, rfl⟩
            | next =>
                -- The first statement did not return, so it is one of the others that does.
                rcases hreturns with hreturns | hreturns
                · obtain ⟨v, hv⟩ := ihs hreturns hfirst
                  cases hv
                · exact ihb hreturns h

end Eval

end DynImp
