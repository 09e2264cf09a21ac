import DynImp.Eval.Exec
import DynImp.Proofs.Typing.Program

/-!
# Linking

The checker resolves a call to the latest definition before it, a run to the latest one of
all.  Both have the name and the number of parameters of the call, so there always is a
function to call; whether it has the signature that the checker had in mind is a matter of
the limits.
-/

namespace DynImp

namespace Eval

open Typing

/-- What the notes of a callable say about it. -/
def Callable.signature : Callable Typed → Signature
  | builtin b => b.signature
  | defined f => f.callee.signature

/-- **Ground.** What all function bodies of a program rest on: its globals as the checker sees them,
and its functions as a run finds them. -/
structure Ground where
  globals : String → Option Variable
  functions : String → Nat → Option (Callable Typed)

namespace Ground

variable (L : Limits) (G : Ground)

/-- Every function that the checker finds is there in a run, up to the limits. -/
def Links (Γ : StaticScope) : Prop :=
  ∀ name arity f, Γ.findFunction name arity = some f →
    ∃ c, G.functions name arity = some c ∧ L.Agree f.signature c.signature

/-- **Typed ground.** Functions are found under their number of parameters, and their bodies are
typed in scopes that are linked. -/
structure Ok : Prop where
  arity : ∀ {name arity c}, G.functions name arity = some c →
    c.signature.params.length = arity
  body : ∀ {name arity f}, G.functions name arity = some (.defined f) →
    ∃ Γ, FunctionOk L G.globals Γ f ∧ G.Links L Γ

end Ground

/-! ## §1 Built-in functions -/

theorem builtins_find {ν : Notes} {name : String} {arity : Nat} {c : Callable ν}
    (h : (builtins : RuntimeScope ν).findFunction name arity = some c) :
    ∃ b : Builtin, c = .builtin b ∧ b.name = name ∧ b.arity = arity := by
  -- There are three definitions, and the last one is looked at first.
  simp only [builtins, Builtin.all, List.foldl, Scope.findFunction_defineFunction] at h
  split at h
  · next heq => cases h; exact ⟨.converter, rfl, heq.1.symm, heq.2.symm⟩
  · split at h
    · next heq => cases h; exact ⟨.log, rfl, heq.1.symm, heq.2.symm⟩
    · split at h
      · next heq => cases h; exact ⟨.print, rfl, heq.1.symm, heq.2.symm⟩
      · cases h

theorem find_builtins {ν : Notes} (b : Builtin) :
    (builtins : RuntimeScope ν).findFunction b.name b.arity = some (.builtin b) := by
  cases b <;> rfl

theorem initial_find {name : String} {arity : Nat} {f : Callee}
    (h : Typing.Env.initial.scope.findFunction name arity = some f) :
    ∃ b : Builtin, b.name = name ∧ b.arity = arity ∧ b.signature = f.signature := by
  simp only [Typing.Env.initial, Typing.Env.define, Builtin.all, List.foldl,
    Scope.findFunction_defineFunction] at h
  split at h
  · next heq => cases h; exact ⟨.converter, heq.1.symm, heq.2.symm, rfl⟩
  · split at h
    · next heq => cases h; exact ⟨.log, heq.1.symm, heq.2.symm, rfl⟩
    · split at h
      · next heq => cases h; exact ⟨.print, heq.1.symm, heq.2.symm, rfl⟩
      · cases h

/-! ## §2 Functions of a program -/

section Defined

variable {ν : Notes}

@[simp] theorem findVariable_defineAll (scope : RuntimeScope ν) (fs : List (Function ν))
    (name : String) : (defineAll scope fs).findVariable name = scope.findVariable name := by
  induction fs generalizing scope with
  | nil => rfl
  | cons f fs ih => exact ih _

/-- A function that is found after definitions was there before or is one of them. -/
theorem defineAll_find {scope : RuntimeScope ν} {fs : List (Function ν)} {name : String}
    {arity : Nat} {c : Callable ν} (h : (defineAll scope fs).findFunction name arity = some c) :
    scope.findFunction name arity = some c ∨
      ∃ f ∈ fs, c = .defined f ∧ f.name = name ∧ f.arity = arity := by
  induction fs generalizing scope with
  | nil => exact Or.inl h
  | cons f fs ih =>
      rcases ih h with h | ⟨g, hg, hc⟩
      · rw [Scope.findFunction_defineFunction] at h
        split at h
        · next heq =>
            cases h
            exact Or.inr ⟨f, List.mem_cons_self, rfl, heq.1.symm, heq.2.symm⟩
        · exact Or.inl h
      · exact Or.inr ⟨g, List.mem_cons_of_mem _ hg, hc⟩

/-- Definitions hide functions, but never the last one of a name and number. -/
theorem find_defineAll {scope : RuntimeScope ν} {fs : List (Function ν)} {name : String}
    {arity : Nat}
    (h : (∃ c, scope.findFunction name arity = some c) ∨
      ∃ f ∈ fs, f.name = name ∧ f.arity = arity) :
    ∃ c, (defineAll scope fs).findFunction name arity = some c := by
  induction fs generalizing scope with
  | nil =>
      rcases h with h | ⟨f, hf, -⟩
      · exact h
      · exact (List.not_mem_nil hf).elim
  | cons f fs ih =>
      refine ih ?_
      rcases h with ⟨c, hc⟩ | ⟨g, hg, hname⟩
      · refine Or.inl ?_
        rw [Scope.findFunction_defineFunction]
        split
        · exact ⟨_, rfl⟩
        · exact ⟨c, hc⟩
      · rcases List.mem_cons.mp hg with rfl | hg
        · refine Or.inl ⟨.defined g, ?_⟩
          rw [Scope.findFunction_defineFunction, if_pos ⟨hname.1.symm, hname.2.symm⟩]
        · exact Or.inr ⟨g, hg, hname⟩

theorem defineAll_congr {scope scope' : RuntimeScope ν} {fs : List (Function ν)}
    (h : ∀ name arity, scope.findFunction name arity = scope'.findFunction name arity)
    (name : String) (arity : Nat) :
    (defineAll scope fs).findFunction name arity =
      (defineAll scope' fs).findFunction name arity := by
  induction fs generalizing scope scope' with
  | nil => exact h name arity
  | cons f fs ih =>
      refine ih ?_
      intro name arity
      rw [Scope.findFunction_defineFunction, Scope.findFunction_defineFunction, h]

end Defined

end Eval

open Typing Eval

variable {L : Limits} {p : Program Typed}

/-! ## §3 Grounds -/

/-- What bodies rest on once all functions are defined. -/
def Program.ground (p : Program Typed) : Ground :=
  ⟨p.global?, (defineAll builtins p.functions).findFunction⟩

/-- What globals rest on while they are evaluated: the built-in functions alone. -/
def Eval.Ground.bare : Ground := ⟨fun _ => none, (builtins : RuntimeScope Typed).findFunction⟩

/-- A scope in which the checker finds nothing but functions of the program. -/
def Program.Knows (p : Program Typed) (Γ : StaticScope) : Prop :=
  ∀ name arity f, Γ.findFunction name arity = some f →
    f.arity = arity ∧ p.Declares name arity f.signature

theorem Program.ground_find {name : String} {arity : Nat} {c : Callable Typed}
    (h : p.ground.functions name arity = some c) :
    (∃ b : Builtin, c = .builtin b ∧ b.name = name ∧ b.arity = arity) ∨
      ∃ f ∈ p.functions, c = .defined f ∧ f.name = name ∧ f.arity = arity := by
  rcases defineAll_find h with h | h
  · exact Or.inl (builtins_find h)
  · exact Or.inr h

theorem Program.ground_declares {name : String} {arity : Nat} {c : Callable Typed}
    (h : p.ground.functions name arity = some c) : p.Declares name arity c.signature := by
  rcases Program.ground_find h with ⟨b, rfl, hname, harity⟩ | ⟨f, hf, rfl, hname, harity⟩
  · exact Or.inl ⟨b, hname, harity, rfl⟩
  · exact Or.inr ⟨f, hf, hname, harity, rfl⟩

theorem Program.declares_ground {name : String} {arity : Nat} {σ : Signature}
    (h : p.Declares name arity σ) : ∃ c, p.ground.functions name arity = some c := by
  refine find_defineAll ?_
  rcases h with ⟨b, rfl, rfl, -⟩ | ⟨f, hf, hname, harity, -⟩
  · exact Or.inl ⟨_, find_builtins b⟩
  · exact Or.inr ⟨f, hf, hname, harity⟩

theorem Typing.ProgramOk.links (hp : ProgramOk L p) {Γ : StaticScope} (hΓ : p.Knows Γ) :
    p.ground.Links L Γ := by
  intro name arity f hf
  -- The name was declared when the call was checked, so it is declared in the end.
  have hdeclared := (hΓ name arity f hf).2
  obtain ⟨c, hc⟩ := Program.declares_ground hdeclared
  exact ⟨c, hc, hp.callees _ _ _ _ hdeclared (Program.ground_declares hc)⟩

theorem Program.knows_initial : p.Knows Env.initial.scope := by
  intro name arity f hf
  obtain ⟨b, hname, harity, hsignature⟩ := initial_find hf
  exact ⟨initial_keyed _ _ _ hf, Or.inl ⟨b, hname, harity, hsignature⟩⟩

theorem Typing.ProgramOk.links_initial (hp : ProgramOk L p) :
    Ground.bare.Links L Env.initial.scope := by
  intro name arity f hf
  obtain ⟨b, rfl, rfl, hsignature⟩ := initial_find hf
  refine ⟨.builtin b, find_builtins b, ?_⟩
  exact hp.callees b.name b.arity _ _ (Or.inl ⟨b, rfl, rfl, hsignature⟩) (Or.inl ⟨b, rfl, rfl, rfl⟩)

theorem Eval.Ground.bare_ok : Ground.bare.Ok L where
  arity h := by
    obtain ⟨b, rfl, -, harity⟩ := builtins_find h
    exact harity
  body h := by
    obtain ⟨b, hb, -⟩ := builtins_find h
    cases hb

/-- Every function of a typed list is typed in a scope that knows only functions of the program, and
so is what follows the list. -/
theorem Typing.FunctionsOk.knows {globals : String → Option Variable} {Γ Γ' : StaticScope}
    {fs : List (Function Typed)} (h : FunctionsOk L globals Γ fs Γ') (hΓ : p.Knows Γ)
    (hfs : ∀ f ∈ fs, f ∈ p.functions) :
    p.Knows Γ' ∧ ∀ f ∈ fs, f.callee.arity = f.arity ∧
      ∃ Γ, FunctionOk L globals Γ f ∧ p.Knows Γ := by
  induction h with
  | nil => exact ⟨hΓ, fun f hf => (List.not_mem_nil hf).elim⟩
  | @cons Γ Γ' f rest harity hok _ ih =>
      have hknows : p.Knows (Γ.defineFunction f.name f.arity f.callee) := by
        intro name arity g hg
        rw [Scope.findFunction_defineFunction] at hg
        split at hg
        · next heq =>
            cases hg
            refine ⟨harity.trans heq.2.symm, Or.inr ⟨f, hfs f List.mem_cons_self, ?_⟩⟩
            exact ⟨heq.1.symm, heq.2.symm, rfl⟩
        · exact hΓ name arity g hg
      obtain ⟨hrest, hall⟩ := ih hknows fun g hg => hfs g (List.mem_cons_of_mem _ hg)
      refine ⟨hrest, ?_⟩
      rw [List.forall_mem_cons]
      exact ⟨⟨harity, _, hok, hknows⟩, hall⟩

/-- **The ground of a typed program is typed**, and there is a `main` to call. -/
theorem Typing.ProgramOk.ground_ok (hp : ProgramOk L p) :
    p.ground.Ok L ∧ ∃ Γ c σ, GlobalsOk L Env.initial.scope p.globals Γ ∧ p.ground.Links L Γ ∧
      (∀ name, Γ.findVariable name = p.global? name) ∧
      p.ground.functions "main" 0 = some c ∧ L.Agree σ c.signature ∧ σ.result = .integer := by
  obtain ⟨Γ, Γ', hglobals, hfunctions, main, hmain, hresult⟩ := hp.items
  have hknows : p.Knows Γ := by
    intro name arity f hf
    rw [hglobals.findFunction] at hf
    exact Program.knows_initial name arity f hf
  obtain ⟨hknows', hbodies⟩ := hfunctions.knows hknows fun _ hf => hf
  have hvariables : ∀ name, Γ.findVariable name = p.global? name := by
    intro name
    rw [hglobals.findVariable]
    exact Option.or_none ..
  obtain ⟨c, hc, hagree⟩ := hp.links hknows' "main" 0 main hmain
  refine ⟨⟨?_, ?_⟩, Γ, c, main.signature, hglobals, hp.links hknows, hvariables, hc, hagree,
    hresult⟩
  · intro name arity c hc
    rcases Program.ground_find hc with ⟨b, rfl, -, harity⟩ | ⟨f, hf, rfl, -, harity⟩
    · exact harity
    · exact (hbodies f hf).1.trans harity
  · intro name arity f hf
    rcases Program.ground_find hf with ⟨b, hb, -⟩ | ⟨g, hg, heq, -⟩
    · cases hb
    · cases heq
      obtain ⟨-, Γf, hok, hΓf⟩ := hbodies f hg
      exact ⟨Γf, hok, hp.links hΓf⟩

end DynImp
