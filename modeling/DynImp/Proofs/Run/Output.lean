import DynImp.Proofs.Run.Compositional

/-!
# Runs with an output that fails

The output has no say in a run until something is written to it.  A run with an output
that fails on every write does the same as one that records everything, step by step, up to
the first write.  There it ends: the fault of the output is passed on through all that is
under way, whatever would have come of it.

* **Layer A: two runs** of one computation, side by side.
* **Layer B: parts**, put together in the evaluator's way.
* **Layer C: programs.**
-/

namespace DynImp

namespace Eval

variable {ν : Notes} {σ α β : Type}

/-! ## §1 Two runs -/

/-- The output of a state. -/
def outputOf [HasWorld σ] (s : σ) : Output := (HasWorld.world s).output

/-- **Muted.** The results of a computation in a state whose output records, and in the same state
with an output that fails. -/
inductive Muted [HasOutput σ] (reason : String) (s : σ) (recorded failing : Outcome Fault α × σ) :
    Prop where
  /-- Nothing is written, and the results differ in the output only. -/
  | silent (same : outputOf recorded.2 = outputOf s)
      (alike : failing = (recorded.1, HasOutput.withOutput (.failing reason) recorded.2))
  /-- Something is written, and the output that fails ends the computation. -/
  | written (whole : (outputOf recorded.2).broken = none)
      (more : (outputOf s).written.length < (outputOf recorded.2).written.length)
      (ended : failing.1 = .failed (.output reason))

namespace Muted

variable [HasOutput σ] {reason : String} {s : σ} {recorded failing : Outcome Fault α × σ}

/-- The output still records afterwards. -/
theorem whole_after (h : Muted reason s recorded failing) (hs : (outputOf s).broken = none) :
    (outputOf recorded.2).broken = none := by
  cases h with
  | silent same => rw [same, hs]
  | written whole => exact whole

/-- Nothing that was written is lost. -/
theorem length_le (h : Muted reason s recorded failing) :
    (outputOf s).written.length ≤ (outputOf recorded.2).written.length := by
  cases h with
  | silent same => exact Nat.le_of_eq (congrArg (·.written.length) same.symm)
  | written _ more => exact Nat.le_of_lt more

/-- The same of the states that others are part of. -/
theorem via {τ : Type} [HasOutput τ] {t : τ} (h : Muted reason s recorded failing) (g : σ → τ)
    (hg : ∀ s, outputOf (g s) = outputOf s)
    (hwith : ∀ output s, g (HasOutput.withOutput output s) = HasOutput.withOutput output (g s))
    (hst : outputOf t = outputOf s) :
    Muted reason t (recorded.1, g recorded.2) (failing.1, g failing.2) := by
  cases h with
  | silent same alike =>
      refine .silent ?_ ?_
      · rw [hg, same, hst]
      · rw [alike, hwith]
  | written whole more ended =>
      refine .written ?_ ?_ ended
      · rw [hg, whole]
      · rw [hg, hst]
        exact more

end Muted

/-- **Computations that the output has no say in**, until something is written. -/
def Mutes [HasOutput σ] (x : Run σ α) : Prop :=
  ∀ reason s, (outputOf s).broken = none →
    Muted reason s (x s) (x (HasOutput.withOutput (.failing reason) s))

/-! ## §2 Parts -/

namespace Mutes

variable [HasOutput σ]

/-- A computation that knows nothing of the output. -/
theorem silent {x : Run σ α} (same : ∀ s, outputOf (x s).2 = outputOf s)
    (alike : ∀ output s, x (HasOutput.withOutput output s) =
      ((x s).1, HasOutput.withOutput output (x s).2)) : Mutes x :=
  fun _ s _ => .silent (same s) (alike _ s)

theorem bind {x : Run σ α} {f : α → Run σ β} (hx : Mutes x) (hf : ∀ a, Mutes (f a)) :
    Mutes (x >>= f) := by
  intro reason s hs
  have h := hx reason s hs
  have hwhole := h.whole_after hs
  obtain ⟨outcome, s', hxs⟩ : ∃ outcome s', x s = (outcome, s') := ⟨_, _, rfl⟩
  rw [Run.bind_apply, Run.bind_apply, hxs]
  rw [hxs] at h hwhole
  cases h with
  | silent same alike =>
      rw [alike]
      -- Both runs go on alike, or are over.
      cases outcome with
      | done a =>
          cases hf a reason s' hwhole with
          | silent same' alike' => exact .silent (same'.trans same) alike'
          | written whole more ended => exact .written whole (by rwa [← same]) ended
      | failed | unfinished => exact .silent same rfl
  | written whole more ended =>
      obtain ⟨outcome', s'', hfailing⟩ :
          ∃ outcome' s'', x (HasOutput.withOutput (.failing reason) s) = (outcome', s'') :=
        ⟨_, _, rfl⟩
      rw [hfailing] at ended ⊢
      cases ended
      -- One run is over, and the other one has written something for good.
      cases outcome with
      | done a =>
          have h' := hf a reason s' hwhole
          exact .written (h'.whole_after hwhole) (Nat.lt_of_lt_of_le more h'.length_le) rfl
      | failed | unfinished => exact .written whole more rfl

theorem emit (text : String) : Mutes (World.emit (text ++ "\n")) := by
  rintro reason ⟨heap, cells, written, _ | broken⟩ hs
  · refine .written rfl ?_ rfl
    change written.length < (written ++ (text ++ "\n")).length
    rw [String.length_append, String.length_append]
    have : "\n".length = 1 := rfl
    omega
  · cases hs

end Mutes

/-- **Muting is compositional.** -/
def muting (ν : Notes) : Compositional ν where
  holds x _ := Mutes x
  pure _ := .silent (fun _ => rfl) fun _ _ => rfl
  fail _ := .silent (fun _ => rfl) fun _ _ => rfl
  unfinished := .silent (fun _ => rfl) fun _ _ => rfl
  bind := .bind
  opening _ _ h := h
  closing _ _ h := h
  ask question := by
    refine .silent (fun w => ?_) fun output w => ?_
    · rw [Run.Still.ask question w]
    · change World.ask question { w with output } = _
      unfold World.ask
      cases question w.heap <;> rfl
  itemsOf _ := .silent (fun _ => rfl) fun _ _ => rfl
  readCell _ := .silent (fun _ => rfl) fun _ _ => rfl
  newList _ := .silent (fun _ => rfl) fun _ _ => rfl
  setItem _ _ _ := .silent (fun _ => rfl) fun _ _ => rfl
  writeCell _ _ := .silent (fun _ => rfl) fun _ _ => rfl
  emit := .emit
  declare _ _ _ := .silent (fun _ => rfl) fun _ _ => rfl
  inWorld h reason m hm :=
    (h m.scope reason m.world hm).via (Machine.mk m.scope) (fun _ => rfl) (fun _ _ => rfl) rfl
  inBlock h reason m hm :=
    (h reason ⟨m.scope.push, m.world⟩ hm).via (fun m' => Machine.mk m.scope m'.world)
      (fun _ => rfl) (fun _ _ => rfl) rfl
  within scope h reason w hw :=
    (h reason ⟨scope, w⟩ hw).via Machine.world (fun _ => rfl) (fun _ _ => rfl) rfl

end Eval

open Eval

/-! ## §3 Programs -/

/-- **Faults of the output are never swallowed, and it has no other effect.** A run with an output
that fails on every write has the result of the run that records, if that one writes nothing,
and then leaves the same lists and cells; and if it writes anything, whatever its result is, the
fault of the output is the result. -/
theorem Program.run_failing {ν : Notes} (p : Program ν) (n : Nat) (reason : String) :
    (p.run n (.start (.failing reason))).1 =
        (if (p.run n (.start .recording)).2.output.written = "" then
          (p.run n (.start .recording)).1
        else .failed (.output reason)) ∧
      ((p.run n (.start .recording)).2.output.written = "" →
        (p.run n (.start (.failing reason))).2 =
          { (p.run n (.start .recording)).2 with output := .failing reason }) := by
  have hmutes : Mutes (p.run n) := (muting ν).run .dynamic n p
  cases hmutes reason (.start .recording) rfl with
  | silent same alike =>
      have hempty : (p.run n (.start .recording)).2.output.written = "" :=
        congrArg Output.written same
      have hfailing : p.run n (.start (.failing reason)) = _ := alike
      rw [if_pos hempty, hfailing]
      exact ⟨rfl, fun _ => rfl⟩
  | written whole more ended =>
      have hwritten : (p.run n (.start .recording)).2.output.written ≠ "" := by
        intro hempty
        change 0 < (p.run n (.start .recording)).2.output.written.length at more
        rw [hempty] at more
        exact Nat.lt_irrefl _ more
      rw [if_neg hwritten]
      exact ⟨ended, fun hempty => (hwritten hempty).elim⟩

/-- A division by zero, and something printed on the way to it or not. -/
def dividing (loud : Bool) : Program Bare :=
  ⟨[], [⟨0, (), "main", [], none,
    [.choose (.literal 0 () (.boolean loud))
        [.perform (.call 0 () () "print" [.literal 0 () (.integer 7)])] [],
      .giveBack (.binary () .divide (.literal 0 () (.integer 1)) (.literal 0 () (.integer 0)))]⟩]⟩

theorem dividing_fails :
    ((dividing true).run 20 (.start .recording)).2.output.written = "7\n" ∧
      ((dividing true).run 20 (.start .recording)).1 = .failed .divisionByZero ∧
      ((dividing true).run 20 (.start (.failing "closed"))).1 = .failed (.output "closed") ∧
      ((dividing false).run 20 (.start (.failing "closed"))).1 = .failed .divisionByZero ∧
      ((dividing false).run 20 (.start (.failing "closed"))).2.output = .failing "closed" := by
  have hloud : ((dividing true).run 20 (.start .recording)).2.output.written = "7\n" := by
    decide +kernel
  have hquiet : ((dividing false).run 20 (.start .recording)).2.output.written = "" := by
    decide +kernel
  refine ⟨hloud, by decide +kernel, ?_, ?_, ?_⟩
  · rw [((dividing true).run_failing 20 "closed").1, hloud]
    exact if_neg (by decide)
  · rw [((dividing false).run_failing 20 "closed").1, if_pos hquiet]
    decide +kernel
  · rw [((dividing false).run_failing 20 "closed").2 hquiet]

end DynImp
