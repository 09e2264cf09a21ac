import DynImp.Proofs.Run.Preservation
import DynImp.Source
import Mathlib.Data.List.Pairwise

/-!
# Type safety

A checked program can go wrong at run time in five ways, all of them left open by design:
a variable of a type without a value starts as nothing, a body may fall off its end and
then gives back nothing, a local variable hides a global from the functions it calls,
a function may be defined anew under the same name, and an integer to a negative power is
a decimal.  Programs that avoid these are type safe.
-/

namespace DynImp

open Typing Eval

/-! ## §1 Disciplined programs -/

/-- The types that nothing is a value of. -/
def Ty.AdmitsNil (τ : Ty) : Prop := τ = .any ∨ τ = .nil

instance : DecidablePred Ty.AdmitsNil := fun τ => inferInstanceAs (Decidable (τ = .any ∨ τ = .nil))

/-- A literal of an integer that is not negative. -/
def Expr.isCount {ν : Notes} : Expr ν → Bool
  | .literal _ _ (.integer i) => 0 ≤ i
  | _ => false

/-- A block whose last statement is a `RETURN`. -/
def Stmt.blockEndsInReturn {ν : Notes} : List (Stmt ν) → Bool
  | [] => false
  | [.giveBack _] => true
  | _ :: rest => Stmt.blockEndsInReturn rest

namespace Program

variable {q : Program Typed}

/-- All functions that a program can call, with their signatures. -/
def signatures (q : Program Typed) : List ((String × Nat) × Signature) :=
  Builtin.all.map (fun b => ((b.name, b.arity), b.signature)) ++
    q.functions.map fun f => ((f.name, f.arity), f.callee.signature)

/-- Variables have an initial value unless nothing is a value of their type. -/
structure Initialised (q : Program Typed) : Prop where
  locals : ∀ l ∈ q.locals, l.value.isNone = true → l.binding.type.AdmitsNil
  globals : ∀ g ∈ q.globals, g.value.isNone = true → g.binding.type.AdmitsNil

/-- **Disciplined programs.** Variables have values, bodies return on all paths, locals that hide a
global have its type, and functions of one name and number of parameters have one signature. -/
structure Disciplined (q : Program Typed) : Prop where
  initialised : q.Initialised
  returns : ∀ f ∈ q.functions,
    f.callee.signature.result.AdmitsNil ∨ Stmt.blockReturns f.body = true
  locals : ∀ l ∈ q.locals, ∀ g ∈ q.global? l.name, l.binding.type = g.type
  params : ∀ f ∈ q.functions, ∀ entry ∈ f.params.zip f.callee.signature.params,
    ∀ g ∈ q.global? entry.1.name, entry.2 = g.type
  signatures : ∀ d ∈ q.signatures, ∀ d' ∈ q.signatures, d.1 = d'.1 → d.2 = d'.2

/-- **The plain fragment.** As disciplined programs, but by conditions that can be read off the
text, and with exponents of integers that are plainly not negative. -/
structure Plain (q : Program Typed) : Prop where
  initialised : q.Initialised
  returns : ∀ f ∈ q.functions,
    f.callee.signature.result.AdmitsNil ∨ Stmt.blockEndsInReturn f.body = true
  locals : ∀ l ∈ q.locals, ∀ g ∈ q.globals, g.name ≠ l.name
  params : ∀ f ∈ q.functions, ∀ a ∈ f.params, ∀ g ∈ q.globals, g.name ≠ a.name
  distinct : q.functions.Pairwise fun f g => ¬ (f.name = g.name ∧ f.arity = g.arity)
  builtins : ∀ f ∈ q.functions, ∀ b ∈ Builtin.all, ¬ (f.name = b.name ∧ f.arity = b.arity)
  exponents : ∀ operands ∈ q.powers, operands.1.type = .integer → operands.2.isCount = true

instance : Decidable q.Initialised :=
  decidable_of_iff
    ((∀ l ∈ q.locals, l.value.isNone = true → l.binding.type.AdmitsNil) ∧
      ∀ g ∈ q.globals, g.value.isNone = true → g.binding.type.AdmitsNil)
    ⟨fun ⟨h₁, h₂⟩ => ⟨h₁, h₂⟩, fun ⟨h₁, h₂⟩ => ⟨h₁, h₂⟩⟩

instance : Decidable q.Disciplined :=
  decidable_of_iff
    (q.Initialised ∧
      (∀ f ∈ q.functions,
        f.callee.signature.result.AdmitsNil ∨ Stmt.blockReturns f.body = true) ∧
      (∀ l ∈ q.locals, ∀ g ∈ q.global? l.name, l.binding.type = g.type) ∧
      (∀ f ∈ q.functions, ∀ entry ∈ f.params.zip f.callee.signature.params,
        ∀ g ∈ q.global? entry.1.name, entry.2 = g.type) ∧
      ∀ d ∈ q.signatures, ∀ d' ∈ q.signatures, d.1 = d'.1 → d.2 = d'.2)
    ⟨fun ⟨h₁, h₂, h₃, h₄, h₅⟩ => ⟨h₁, h₂, h₃, h₄, h₅⟩,
      fun ⟨h₁, h₂, h₃, h₄, h₅⟩ => ⟨h₁, h₂, h₃, h₄, h₅⟩⟩

instance : Decidable q.Plain :=
  decidable_of_iff
    (q.Initialised ∧
      (∀ f ∈ q.functions,
        f.callee.signature.result.AdmitsNil ∨ Stmt.blockEndsInReturn f.body = true) ∧
      (∀ l ∈ q.locals, ∀ g ∈ q.globals, g.name ≠ l.name) ∧
      (∀ f ∈ q.functions, ∀ a ∈ f.params, ∀ g ∈ q.globals, g.name ≠ a.name) ∧
      (q.functions.Pairwise fun f g => ¬ (f.name = g.name ∧ f.arity = g.arity)) ∧
      (∀ f ∈ q.functions, ∀ b ∈ Builtin.all, ¬ (f.name = b.name ∧ f.arity = b.arity)) ∧
      ∀ operands ∈ q.powers, operands.1.type = .integer → operands.2.isCount = true)
    ⟨fun ⟨h₁, h₂, h₃, h₄, h₅, h₆, h₇⟩ => ⟨h₁, h₂, h₃, h₄, h₅, h₆, h₇⟩,
      fun ⟨h₁, h₂, h₃, h₄, h₅, h₆, h₇⟩ => ⟨h₁, h₂, h₃, h₄, h₅, h₆, h₇⟩⟩

/-! ## §2 Limits -/

private theorem zip_self {α : Type} (as : List α) : ∀ entry ∈ as.zip as, entry.1 = entry.2 := by
  induction as with
  | nil => exact fun _ h => (List.not_mem_nil h).elim
  | cons a as ih =>
      rw [List.zip_cons_cons, List.forall_mem_cons]
      exact ⟨rfl, ih⟩

theorem Declares.mem_signatures {name : String} {arity : Nat} {σ : Signature}
    (h : q.Declares name arity σ) : ((name, arity), σ) ∈ q.signatures := by
  rcases h with ⟨b, rfl, rfl, rfl⟩ | ⟨f, hf, rfl, rfl, rfl⟩
  · exact List.mem_append_left _ (List.mem_map.mpr ⟨b, by cases b <;> decide, rfl⟩)
  · exact List.mem_append_right _ (List.mem_map.mpr ⟨f, hf, rfl⟩)

/-- Disciplined programs are within the strict limits. -/
theorem Disciplined.allows (hq : q.Disciplined) {power : Expr Typed → Expr Typed → Prop}
    (hpower : ∀ operands ∈ q.powers, power operands.1 operands.2) :
    (strictLimits power).AllowsProgram q where
  exprs e he τ left right heq := by
    subst heq
    exact hpower _ (mem_powers he)
  stmts s hs o x name typeName value heq := by
    subst heq
    have hlocal := mem_locals hs
    refine ⟨?_, hq.locals _ hlocal⟩
    rintro rfl
    exact hq.initialised.locals _ hlocal rfl
  blanks g hg hnone := hq.initialised.globals g hg (Option.isNone_iff_eq_none.mpr hnone)
  params := hq.params
  returns := hq.returns
  callees name arity σ σ' hσ hσ' := by
    cases hq.signatures _ hσ.mem_signatures _ hσ'.mem_signatures rfl
    exact ⟨zip_self σ.params, rfl⟩

theorem global?_mem {name : String} {x : Variable} (h : q.global? name = some x) :
    ∃ g ∈ q.globals, g.name = name := by
  obtain ⟨g, hg, -⟩ := Option.map_eq_some_iff.mp h
  have hname := List.find?_some hg
  exact ⟨g, List.mem_reverse.mp (List.mem_of_find?_eq_some hg), by simpa using hname⟩

private theorem blockReturns_of_ends {body : List (Stmt Typed)}
    (h : Stmt.blockEndsInReturn body = true) : Stmt.blockReturns body = true := by
  induction body with
  | nil => cases h
  | cons s rest ih =>
      cases rest with
      | nil => cases s <;> first | rfl | cases h
      | cons t rest =>
          rw [Stmt.blockEndsInReturn] at h
          · rw [Stmt.blockReturns, ih h, Bool.or_true]
          · intro _ _ hnil
            cases hnil

private theorem builtin_eq {b b' : Builtin} (h : b.name = b'.name) : b = b' := by
  cases b <;> cases b' <;> first | rfl | exact absurd h (by decide)

/-- In the plain fragment a name and a number of parameters have one function. -/
theorem Plain.signatures_unique (hq : q.Plain) :
    ∀ d ∈ q.signatures, ∀ d' ∈ q.signatures, d.1 = d'.1 → d.2 = d'.2 := by
  intro d hd d' hd' hkey
  -- Entries of the two kinds never share a key, and neither do two entries of one kind.
  rcases List.mem_append.mp hd with hd | hd <;> rcases List.mem_append.mp hd' with hd' | hd' <;>
    obtain ⟨f, hf, rfl⟩ := List.mem_map.mp hd <;> obtain ⟨f', hf', rfl⟩ := List.mem_map.mp hd' <;>
    obtain ⟨hname, harity⟩ := Prod.mk.inj hkey
  · rw [builtin_eq hname]
  · exact (hq.builtins f' hf' f hf ⟨hname.symm, harity.symm⟩).elim
  · exact (hq.builtins f hf f' hf' ⟨hname, harity⟩).elim
  · by_contra hne
    have hff' : f ≠ f' := fun h => hne (by rw [h])
    have hsymm : Std.Symm fun f g : Function Typed => ¬ (f.name = g.name ∧ f.arity = g.arity) :=
      ⟨fun _ _ h h' => h ⟨h'.1.symm, h'.2.symm⟩⟩
    exact hq.distinct.forall hf hf' hff' ⟨hname, harity⟩

theorem Plain.disciplined (hq : q.Plain) : q.Disciplined where
  initialised := hq.initialised
  returns f hf := (hq.returns f hf).imp_right blockReturns_of_ends
  locals l hl g hg := by
    obtain ⟨g', hmem, hname⟩ := global?_mem hg
    exact (hq.locals l hl g' hmem hname).elim
  params f hf entry hentry g hg := by
    obtain ⟨g', hmem, hname⟩ := global?_mem hg
    exact (hq.params f hf entry.1 (List.of_mem_zip hentry).1 g' hmem hname).elim
  signatures := hq.signatures_unique

end Program

/-! ## §3 Texts -/

namespace Source

/-- A text that holds a program with a property, and the program checks. -/
def ChecksTo (text : String) (P : Program Typed → Prop) : Prop :=
  ∃ q, check text = .ok q ∧ P q

instance {text : String} {P : Program Typed → Prop} [DecidablePred P] :
    Decidable (ChecksTo text P) :=
  match h : check text with
  | .ok q => decidable_of_iff (P q)
      ⟨fun hq => ⟨q, h, hq⟩, fun ⟨_, hq', hq⟩ => Except.ok.inj (h.symm.trans hq') ▸ hq⟩
  | .error _ => isFalse fun ⟨_, hq, _⟩ => by cases h.symm.trans hq

theorem check_ok {text : String} {q : Program Typed} (h : check text = .ok q) :
    ∃ p : Program Bare, p.check = .ok q := by
  unfold check at h
  split at h
  · cases h
  · next p _ => exact ⟨p, mapError_eq_ok.mp h⟩

end Source

/-! ## §4 Preservation -/

/-- Exponents of integers are plain in the program. -/
private def plainExponents : Exponents where
  power left right := left.type = .integer → right.isCount = true
  assumed _ := True
  nonneg {left right i j w} hpower hinteger hliteral _ := by
    have hcount := hpower hinteger
    cases right with
    | literal o σ s =>
        cases hliteral o σ s rfl
        simpa [Expr.isCount] using hcount
    | group | binary | var | element | call | list => cases hcount

/-- **Preservation.** A run of a checked program of the plain fragment has one store typing from its
start to its end: every expression evaluates to values of its type, every variable has a cell of
its type, every list has elements of its type, in every world on the way.  And the run ends, if
it ends, with an integer or with a fault that has nothing to do with types. -/
theorem Program.plain_preserved {p : Program Bare} {q : Program Typed} (h : p.check = .ok q)
    (hq : q.Plain) (n : Nat) (output : Output) :
    ∃ S : StoreTyping, (∀ ev ∈ q.trail n (.start output), S.Respects ev) ∧
      S.Fits (q.run n (.start output)).2 ∧
      match (q.run n (.start output)).1 with
      | .done v => ∃ i, v = .integer i
      | .failed e => e.Ordinary
      | .unfinished => True :=
  Program.run_typed plainExponents h (hq.disciplined.allows hq.exponents) n output
    fun _ _ => trivial

/-- A program that stores through an alias and raises to a power. -/
def aliasing : String :=
  "LIST xs: Integer = [1, 2];
  FUN change(i: Integer): Integer DO LET ys = xs; ys[i] = 5; RETURN ys[i]; END
  FUN main(): Integer DO RETURN change(0) + xs[0] ^ 2; END"

theorem aliasing_preserved :
    ∃ q : Program Typed, (q.run 30 (.start .recording)).1 = .done (.integer 30) ∧
      ∃ S : StoreTyping, (∀ ev ∈ q.trail 30 (.start .recording), S.Respects ev) ∧
        S.Fits (q.run 30 (.start .recording)).2 := by
  have hchecks : Source.ChecksTo aliasing fun q =>
      q.Plain ∧ (q.run 30 (.start .recording)).1 = .done (.integer 30) := by
    decide +kernel
  obtain ⟨q, hcheck, hplain, hrun⟩ := hchecks
  obtain ⟨p, hp⟩ := Source.check_ok hcheck
  obtain ⟨S, hevents, hfits, -⟩ := Program.plain_preserved hp hplain 30 .recording
  exact ⟨q, hrun, S, hevents, hfits⟩

/-! ## §5 Safety -/

/-- **Type safe texts.** If the text is checked and run, and the run raises no integer to a negative
power, then it does not end in a type mismatch, and its value is an integer. -/
def Source.TypeSafe (text : String) : Prop :=
  ∀ q, Source.check text = .ok q → ∀ n output,
    (∀ i j w, .applied .power (.integer i) (.integer j) w ∈ q.trail n (.start output) → 0 ≤ j) →
    (∀ demand found, (q.run n (.start output)).1 ≠ .failed (.typeMismatch demand found)) ∧
      ∀ v, (q.run n (.start output)).1 = .done v → ∃ i, v = .integer i

/-- Exponents of integers are not negative in the run. -/
private def runExponents : Exponents where
  power _ _ := True
  assumed ev := ∀ i j w, ev = .applied .power (.integer i) (.integer j) w → 0 ≤ j
  nonneg _ _ _ h := h _ _ _ rfl

/-- **Safety.** Texts of disciplined programs are type safe. -/
theorem Source.disciplined_safe {text : String}
    (hq : ∀ q, Source.check text = .ok q → q.Disciplined) : Source.TypeSafe text := by
  intro q h n output hpower
  obtain ⟨p, hp⟩ := Source.check_ok h
  have hlimits : (strictLimits runExponents.power).AllowsProgram q :=
    (hq q h).allows fun _ _ => trivial
  have hassumed : ∀ ev ∈ q.trail n (.start output), runExponents.assumed ev := by
    rintro ev hev i j w rfl
    exact hpower i j w hev
  obtain ⟨S, -, -, hend⟩ := Program.run_typed runExponents hp hlimits n output hassumed
  constructor
  · intro demand found hmismatch
    rw [hmismatch] at hend
    exact hend
  · intro v hv
    rw [hv] at hend
    exact hend

/-- A program whose body returns on both branches, and whose local variable hides a global of its
type from the function it calls. -/
def overriding : String :=
  "VAR x = 1;
  FUN sign(n: Integer): Integer DO IF n < 0 DO RETURN 0 - x; ELSE RETURN x; END END
  FUN main(): Integer DO LET x = 7; RETURN sign(0 - x); END"

theorem overriding_safe :
    Source.TypeSafe overriding ∧ Source.ChecksTo overriding fun q =>
      (q.run 30 (.start .recording)).1 = .done (.integer (-7)) := by
  have hchecks : Source.ChecksTo overriding fun q =>
      q.Disciplined ∧ (q.run 30 (.start .recording)).1 = .done (.integer (-7)) := by
    decide +kernel
  obtain ⟨q, hcheck, hdisciplined, hrun⟩ := hchecks
  refine ⟨Source.disciplined_safe fun q' hq' => ?_, q, hcheck, hrun⟩
  cases hcheck.symm.trans hq'
  exact hdisciplined

/-! ### What goes wrong otherwise -/

/-- An application of the power operator. -/
private def isPower : Event Typed → Bool
  | .applied .power _ _ _ => true
  | _ => false

/-- Ends that type safety rules out. -/
private def isWrong : Outcome Eval.Fault Value → Bool
  | .failed (.typeMismatch _ _) => true
  | .done (.scalar (.integer _)) => false
  | .done _ => true
  | _ => false

private theorem not_typeSafe {text : String} (h : Source.ChecksTo text fun q =>
    (q.trail 20 (.start .recording)).all (fun ev => !isPower ev) = true ∧
      isWrong (q.run 20 (.start .recording)).1 = true) : ¬ Source.TypeSafe text := by
  obtain ⟨q, hcheck, hpowers, hwrong⟩ := h
  intro hsafe
  obtain ⟨hmismatch, hvalue⟩ := hsafe q hcheck 20 .recording fun i j w hev => by
    simpa [isPower] using List.all_eq_true.mp hpowers _ hev
  -- Every end that is wrong contradicts what safety says of the end of this run.
  cases hrun : (q.run 20 (.start .recording)).1 with
  | done v =>
      obtain ⟨i, rfl⟩ := hvalue v hrun
      rw [hrun] at hwrong
      cases hwrong
  | failed e =>
      cases e with
      | typeMismatch demand found => exact hmismatch demand found hrun
      | _ =>
          rw [hrun] at hwrong
          cases hwrong
  | unfinished =>
      rw [hrun] at hwrong
      cases hwrong

/-- **No condition can go**: programs that check and are not type safe because a variable has no
value, because a body falls off its end, because a local variable hides a global of another
type, and because a function is defined anew with another result. -/
theorem Source.checked_not_safe :
    ¬ TypeSafe "VAR x: Integer; FUN main(): Integer DO RETURN x + 1; END" ∧
    ¬ TypeSafe "FUN main(): Integer DO END" ∧
    ¬ TypeSafe "VAR x = 1; FUN f(): Integer DO RETURN x + 1; END
      FUN main(): Integer DO LET x = TRUE; RETURN f(); END" ∧
    ¬ TypeSafe "FUN f(): Integer DO RETURN 1; END FUN g(): Integer DO RETURN f() + 1; END
      FUN f(): Boolean DO RETURN TRUE; END FUN main(): Integer DO RETURN g(); END" := by
  refine ⟨not_typeSafe ?_, not_typeSafe ?_, not_typeSafe ?_, not_typeSafe ?_⟩ <;> decide +kernel

end DynImp
