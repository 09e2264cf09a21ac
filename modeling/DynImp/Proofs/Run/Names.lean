import DynImp.Proofs.Eval.Faults
import DynImp.Proofs.Run.Model

/-!
# Names never fail

A run of a checked program finds every name that it uses, assigns only to what may be
assigned to, and calls every function with as many arguments as it takes.  The checker
looks names up where they are written and a run where they are used, so this holds
although the two may find different variables and different functions.
-/

namespace DynImp

namespace Eval

/-- The faults of names: nothing has the name, or what has it is not to be used like this. -/
def Fault.OfNames : Fault → Prop
  | undefined _ | immutableAssignment _ | invalidReceiver | arityMismatch _ _ _ => True
  | _ => False

theorem Fault.OfOperator.not_ofNames {e : Fault} (h : e.OfOperator) : ¬ e.OfNames := by
  cases e <;> simp_all [OfOperator, OfNames]

theorem Fault.OfBuiltin.not_ofNames {e : Fault} (h : e.OfBuiltin) : ¬ e.OfNames := by
  cases e <;> simp_all [OfBuiltin, OfNames]

/-- **No limits**: what the checker looks at and nothing else. -/
def freeLimits : Typing.Limits := ⟨fun _ => True, fun _ _ => True, fun _ _ => True⟩

theorem freeLimits_allowsProgram (p : Program Typed) : freeLimits.AllowsProgram p where
  exprs _ _ _ _ _ _ := trivial
  stmts _ _ _ _ _ _ _ _ := ⟨fun _ => trivial, fun _ _ => trivial⟩
  blanks _ _ _ := trivial
  params _ _ _ _ _ _ := trivial
  returns _ _ := Or.inl trivial
  callees _ _ _ _ _ _ := ⟨fun _ _ => trivial, trivial⟩

/-- The contract that knows nothing of values and forbids the faults of names. -/
def namesContract : Contract Ignorance Typed where
  world _ _ := True
  event _ _ := True
  assumed _ := True
  fault e := ¬ e.OfNames
  event_mono _ h := h

private theorem keeps_of_fails {α : Type} {k : Ignorance} {x : Run World α} {w : World}
    (hx : x.FailsWith fun e => ¬ e.OfNames) :
    namesContract.Keeps k x Trail.quiet w fun _ _ _ => True := by
  intro _
  refine ⟨k, le_refl k, trivial, fun _ h => (List.not_mem_nil h).elim, ?_⟩
  cases hout : (x w).1 with
  | done a => trivial
  | failed e => exact hx w e hout
  | unfinished => trivial

private theorem asBoolean_fails (v : Value) : (asBoolean v).FailsWith fun e => ¬ e.OfNames := by
  unfold asBoolean
  split
  · exact .pure _
  · exact .fail (by simp [Fault.OfNames])

private theorem asInteger_fails (v : Value) : (asInteger v).FailsWith fun e => ¬ e.OfNames := by
  unfold asInteger
  split
  · exact .pure _
  · exact .fail (by simp [Fault.OfNames])

private theorem asList_fails (v : Value) : (asList v).FailsWith fun e => ¬ e.OfNames := by
  unfold asList
  split
  · exact .pure _
  · exact .fail (by simp [Fault.OfNames])

/-- **The model of names.** Anything is a value of any type, and any place a cell: all that a typed
program needs to find its names is that they are there. -/
def namesModel : Model Ignorance freeLimits where
  toContract := namesContract
  value _ _ _ := True
  cell _ _ _ := True
  value_mono _ h := h
  cell_mono _ h := h
  scalar _ := trivial
  accepts _ _ := trivial
  blank _ := trivial
  same _ _ := trivial
  same_cell _ _ := trivial
  asBoolean {_ _ v} _ _ := keeps_of_fails (asBoolean_fails v)
  asInteger {_ _ v} _ _ := keeps_of_fails (asInteger_fails v)
  asList {_ _ _ v} _ _ := keeps_of_fails (asList_fails v)
  readCell _ _ := keeps_of_fails fun _ _ h => by cases h
  elementAt index _ _ := by
    refine keeps_of_fails ((elementAt_fails _ index).imp ?_)
    rintro _ ⟨length, rfl⟩
    simp [Fault.OfNames]
  newList _ _ := keeps_of_fails fun _ _ h => by cases h
  newCell _ _ := ⟨.ignorance, trivial, trivial, trivial⟩
  writeCell _ _ _ := keeps_of_fails fun _ _ h => by cases h
  storeAt index _ _ _ := by
    refine keeps_of_fails ((storeAt_fails _ index _).imp ?_)
    rintro _ (rfl | ⟨length, rfl⟩) <;> simp [Fault.OfNames]
  apply _ _ _ _ _ _ _ _ _ := keeps_of_fails ((apply_fails _ _ _).imp fun _ h => h.not_ofNames)
  callBuiltin _ _ hargs :=
    keeps_of_fails ((callBuiltin_fails hargs.length_eq.symm).imp fun _ h => h.not_ofNames)
  evaluated _ _ _ _ := trivial
  executed _ _ _ := trivial
  applied _ := trivial
  bound _ _ := trivial
  called _ _ := trivial
  passed _ _ _ := trivial

end Eval

open Eval

/-- **Names never fail.** No run of a checked program ends because a name is unknown, because a
variable must not change, because something is no receiver, or because a function does not take
that many arguments: whatever hides whatever, however often functions are redefined, and however
deep they recurse. -/
theorem Program.names_never_fail {p : Program Bare} {q : Program Typed} (h : p.check = .ok q)
    (n : Nat) (start : World) (e : Fault) (he : (q.run n start).1 = .failed e) :
    (∀ x, e ≠ .undefined x) ∧ (∀ name, e ≠ .immutableAssignment name) ∧ e ≠ .invalidReceiver ∧
      ∀ name expected found, e ≠ .arityMismatch name expected found := by
  have hok := Typing.check_sound h (freeLimits_allowsProgram q)
  obtain ⟨k, -, -, -, hfault⟩ := namesModel.run_keeps (k := .ignorance) (w := start) n hok trivial
    fun _ _ => trivial
  rw [he] at hfault
  -- The model says of a fault only that it is not of names, which rules out all four.
  have hnot : ¬ e.OfNames := hfault
  refine ⟨?_, ?_, ?_, ?_⟩
  · rintro x rfl
    exact hnot trivial
  · rintro name rfl
    exact hnot trivial
  · rintro rfl
    exact hnot trivial
  · rintro name expected found rfl
    exact hnot trivial

/-- A program with a local variable that hides a constant, and a function that is defined anew with
another result after it was called. -/
def shadowing : Program Bare :=
  ⟨[⟨0, (), "x", none, false, false, some (.literal 0 () (.integer 1))⟩],
    [⟨0, (), "f", [], some "Integer", [.giveBack (.var 0 () () "x")]⟩,
      ⟨0, (), "g", [], some "Integer", [.giveBack (.call 0 () () "f" [])]⟩,
      ⟨0, (), "f", [], some "Boolean", [.giveBack (.literal 0 () (.boolean true))]⟩,
      ⟨0, (), "main", [], some "Integer",
        [.declare 0 () "x" none (some (.literal 0 () (.integer 2))),
          .assign (.var 0 () () "x") (.literal 0 () (.integer 3)),
          .perform (.call 0 () () "g" []),
          .giveBack (.binary () .divide (.var 0 () () "x") (.literal 0 () (.integer 0)))]⟩]⟩

theorem shadowing_fails_otherwise :
    ∃ q, shadowing.check = .ok q ∧
      (q.run 20 (.start .recording)).1 = .failed .divisionByZero ∧
      ∀ name, Fault.divisionByZero ≠ .immutableAssignment name := by
  have hchecked : ∃ q, shadowing.check = .ok q ∧
      (q.run 20 (.start .recording)).1 = .failed .divisionByZero := ⟨_, rfl, by decide +kernel⟩
  obtain ⟨q, hq, hrun⟩ := hchecked
  exact ⟨q, hq, hrun, (Program.names_never_fail hq 20 (.start .recording) _ hrun).2.1⟩

end DynImp
