import DynImp.Proofs.Run.Agreement
import DynImp.Proofs.Typing.Rejection
import DynImp.Source

/-!
# Which `main` is reported

A program may define `main` without parameters more than once.  A definition replaces an
earlier one, so a run enters the last of them, and it is the last of them that has to give
back an integer.  A rejection for its result names the result of the last one, but points
at the first one.

* **Layer A: definitions** of `main` in a list of functions.
* **Layer B: rejections.**
-/

namespace DynImp

open Typing Eval

/-! ## §1 Definitions -/

section Definitions

variable {ν : Notes} {fs : List (Function ν)} {first last : Function ν}

/-- A run enters the last `main`. -/
theorem findFunction_main (h : fs.reverse.find? Function.isMain = some last) :
    (defineAll builtins fs).findFunction "main" 0 = some (.defined last) := by
  rw [findFunction_defineAll, inForce, definitions, List.reverse_append, List.find?_append,
    ← List.map_reverse, List.find?_map]
  have hanswers : Callable.answers "main" 0 ∘ Callable.defined = Function.isMain (ν := ν) :=
    Function.isMain_eq.symm
  rw [hanswers, h]
  rfl

/-- If there is one `main` it is the first and the last one. -/
theorem first_eq_last (hfirst : fs.find? Function.isMain = some first)
    (hlast : fs.reverse.find? Function.isMain = some last)
    (hone : (fs.filter Function.isMain).length = 1) : first = last := by
  obtain ⟨f, hf⟩ := List.length_eq_one_iff.mp hone
  rw [← List.head?_filter, hf] at hfirst
  rw [← List.head?_filter, List.filter_reverse, hf] at hlast
  exact (Option.some.inj hfirst).symm.trans (Option.some.inj hlast)

end Definitions

/-! ## §2 Rejections -/

namespace Program

/-- The globals and the bodies of the functions all check. -/
def PartsCheck (p : Program Bare) : Prop :=
  ∃ globals env functions env', checkEach checkGlobal .initial p.globals = .ok (globals, env) ∧
    checkEach checkFunction env p.functions = .ok (functions, env')

/-- **Reported mains.** The error points at a `main` with the result that is not an integer, and
this is the one that a run would enter. -/
def ReportsMain (p : Program Bare) (e : TypeError) : Prop :=
  ∃ f ∈ p.functions, f.isMain ∧ e = ⟨f.offset, .notAssignable .integer f.returnType⟩ ∧
    (defineAll builtins p.functions).findFunction "main" 0 = some (.defined f)

/-- A rejection for the result of the last `main` is about that `main`, so it has to point there. -/
theorem reportsMain_iff {p : Program Bare} {last : Function Bare} {o : Nat}
    (hlast : p.functions.reverse.find? Function.isMain = some last) :
    p.ReportsMain ⟨o, .notAssignable .integer last.returnType⟩ ↔ o = last.offset := by
  have hforce := findFunction_main hlast
  constructor
  · rintro ⟨f, -, -, herror, hf⟩
    rw [hforce] at hf
    cases hf
    exact congrArg TypeError.offset herror
  · rintro rfl
    exact ⟨last, List.mem_reverse.mp (List.mem_of_find?_eq_some hlast), List.find?_some hlast, rfl,
      hforce⟩

/-- **Rejected mains.** If nothing but the result of `main` is wrong with a program, the error names
the result of the last `main`, which is the one that a run would enter, at the place of the first
one.  So it points at the `main` that it is about if the first and the last one stand at one place,
as they do if there is only one, and in no other case. -/
theorem main_rejected {p : Program Bare} {o : Nat} {τ : Ty} (hparts : p.PartsCheck)
    (h : p.check = .error ⟨o, .notAssignable .integer τ⟩) :
    ∃ first last, p.functions.find? Function.isMain = some first ∧
      p.functions.reverse.find? Function.isMain = some last ∧
      (defineAll builtins p.functions).findFunction "main" 0 = some (.defined last) ∧
      o = first.offset ∧ τ = last.returnType ∧
      (p.ReportsMain ⟨o, .notAssignable .integer τ⟩ ↔ first.offset = last.offset) ∧
      ((p.functions.filter Function.isMain).length = 1 →
        p.ReportsMain ⟨o, .notAssignable .integer τ⟩) := by
  obtain ⟨globals, env, functions, env', hglobals, hfunctions⟩ := hparts
  rw [check, hglobals] at h
  dsimp only [bind, Except.bind] at h
  rw [hfunctions] at h
  dsimp only at h
  split at h
  · cases h
  · next found hfound =>
      obtain ⟨first, last, hfirst, hlast, hresult⟩ := exists_main hglobals hfunctions hfound
      obtain ⟨rfl, rfl⟩ : o = first.offset ∧ τ = last.returnType := by
        rw [mainOffset_eq hfirst, hresult, requireAssignable] at h
        by_cases haccepts : Ty.accepts .integer last.returnType = true
        · rw [if_pos haccepts] at h
          cases h
        · rw [if_neg haccepts] at h
          cases h
          exact ⟨rfl, rfl⟩
      refine ⟨first, last, hfirst, hlast, findFunction_main hlast, rfl, rfl, reportsMain_iff hlast,
        fun hone => ?_⟩
      rw [reportsMain_iff hlast, first_eq_last hfirst hlast hone]

end Program

/-! ## §3 Texts -/

section Decidable

instance decidableFailsWith {ε α : Type} [DecidableEq ε] (x : Except ε α) (e : ε) :
    Decidable (x = .error e) :=
  match x with
  | .error e' => decidable_of_iff (e' = e) ⟨congrArg Except.error, Except.error.inj⟩
  | .ok _ => isFalse nofun

instance : DecidablePred Program.PartsCheck := fun p =>
  match hglobals : checkEach checkGlobal .initial p.globals with
  | .error _ => isFalse fun ⟨_, _, _, _, h, _⟩ => nomatch hglobals.symm.trans h
  | .ok (globals, env) =>
    match hfunctions : checkEach checkFunction env p.functions with
    | .error _ => isFalse fun ⟨_, _, _, _, h, h'⟩ => by
        cases hglobals.symm.trans h
        cases hfunctions.symm.trans h'
    | .ok (functions, env') => isTrue ⟨globals, env, functions, env', hglobals, hfunctions⟩

end Decidable

namespace Source

/-- A text that holds a program with a property. -/
def ParsesTo (text : String) (P : Program Bare → Prop) : Prop := ∃ p, parse text = .ok p ∧ P p

instance {text : String} {P : Program Bare → Prop} [DecidablePred P] :
    Decidable (ParsesTo text P) :=
  match h : parse text with
  | .ok p => decidable_of_iff (P p)
      ⟨fun hp => ⟨p, h, hp⟩, fun ⟨_, hp', hp⟩ => Except.ok.inj (h.symm.trans hp') ▸ hp⟩
  | .error _ => isFalse fun ⟨_, hp, _⟩ => nomatch h.symm.trans hp

/-- A `main` that is rejected for its result, the only one of its program. -/
def truthful : String :=
  "FUN helper(): Boolean DO RETURN TRUE; END FUN main(): Boolean DO RETURN helper(); END"

theorem truthful_main_rejected : ParsesTo truthful fun p =>
    p.PartsCheck ∧ p.check = .error ⟨42, .notAssignable .integer .boolean⟩ ∧
      p.ReportsMain ⟨42, .notAssignable .integer .boolean⟩ := by
  have hrejected : ParsesTo truthful fun p =>
      p.PartsCheck ∧ p.check = .error ⟨42, .notAssignable .integer .boolean⟩ ∧
        (p.functions.filter Function.isMain).length = 1 := by
    decide +kernel
  obtain ⟨p, hparse, hparts, hcheck, hone⟩ := hrejected
  obtain ⟨_, _, -, -, -, -, -, -, hreports⟩ := Program.main_rejected hparts hcheck
  exact ⟨p, hparse, hparts, hcheck, hreports hone⟩

/-- If nothing but the result of `main` is wrong with a text, the error points at the `main` that it
is about. -/
def MainReported (text : String) : Prop :=
  ∀ p e, parse text = .ok p → p.PartsCheck → p.check = .error e → e.fault ≠ .missingMain →
    p.ReportsMain e

/-- Two definitions of `main`, the second of which takes the place of the first. -/
def replaced : String :=
  "FUN main(): Integer DO RETURN 0; END FUN main(): Boolean DO RETURN TRUE; END"

/-- **The wrong `main`** is pointed at if it is replaced further on. -/
theorem replaced_not_reported : ¬ MainReported replaced := by
  have hrejected : ParsesTo replaced fun p =>
      p.PartsCheck ∧ p.check = .error ⟨0, .notAssignable .integer .boolean⟩ ∧
        ∀ f ∈ p.functions, ¬ (f.offset = 0 ∧ f.returnType = .boolean) := by
    decide +kernel
  obtain ⟨p, hparse, hparts, hcheck, hnone⟩ := hrejected
  intro hreported
  obtain ⟨f, hf, -, herror, -⟩ := hreported p _ hparse hparts hcheck nofun
  have hoffset := congrArg TypeError.offset herror
  have hfault := congrArg TypeError.fault herror
  exact hnone f hf ⟨hoffset.symm, (Fault.notAssignable.inj hfault).2.symm⟩

end Source

end DynImp
