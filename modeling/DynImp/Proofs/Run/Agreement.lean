import DynImp.Proofs.Run.Calls
import DynImp.Proofs.Run.Safety
import DynImp.Proofs.Typing.Annotation
import Mathlib.Data.List.Nodup

/-!
# Which function a call enters

The checker writes on every call node the function that it found for it: the latest one
defined before.  A run looks the function up when the call is made, when all functions are
defined.  Both look among the definitions of a name and number of parameters, so they find
the same one unless there is another one further on in the program.

* **Layer A: definitions** in order, and the tables as searches in them.
* **Layer B: call nodes** of a checked program.
* **Layer C: runs** of checked programs.
-/

namespace DynImp

open Typing Eval

/-! ## §1 Definitions -/

namespace Eval.Callable

variable {ν : Notes}

def name : Callable ν → String
  | builtin b => b.name
  | defined f => f.name

def arity : Callable ν → Nat
  | builtin b => b.arity
  | defined f => f.arity

/-- The note on calls for which the checker found this one. -/
def binding : Callable Typed → Callee
  | builtin b => Typing.Builtin.callee b
  | defined f => f.callee

/-- Whether calls by this name and with this many arguments may be for it. -/
def answers (name : String) (arity : Nat) (d : Callable ν) : Bool := d.name = name ∧ d.arity = arity

@[simp] theorem answers_iff {name : String} {arity : Nat} {d : Callable ν} :
    d.answers name arity = true ↔ d.name = name ∧ d.arity = arity := by
  simp [answers]

end Eval.Callable

variable {ν : Notes}

/-- The built-in functions and those of a program, in the order in which they are defined. -/
def definitions (fs : List (Function ν)) : List (Callable ν) :=
  Builtin.all.map .builtin ++ fs.map .defined

theorem definitions_append (fs gs : List (Function ν)) :
    definitions (fs ++ gs) = definitions fs ++ gs.map .defined := by
  rw [definitions, definitions, List.map_append, List.append_assoc]

/-- **Definition in force.** The latest one that answers a call. -/
def inForce (fs : List (Function ν)) (name : String) (arity : Nat) : Option (Callable ν) :=
  (definitions fs).reverse.find? (Callable.answers name arity)

theorem inForce_append (fs gs : List (Function ν)) (name : String) (arity : Nat) :
    inForce (fs ++ gs) name arity =
      ((gs.map Callable.defined).reverse.find? (Callable.answers name arity)).or
        (inForce fs name arity) := by
  rw [inForce, definitions_append, List.reverse_append, List.find?_append]
  rfl

/-- A run finds the definition in force. -/
theorem findFunction_defineAll (fs : List (Function ν)) (name : String) (arity : Nat) :
    (defineAll builtins fs).findFunction name arity = inForce fs name arity := by
  rw [defineAll, builtins, Scope.findFunction_defineEach, Scope.findFunction_defineEach, inForce,
    definitions, List.reverse_append, List.find?_append, ← List.map_reverse, ← List.map_reverse,
    List.find?_map, List.find?_map]
  exact congrArg _ (Option.or_none ..)

/-- Later definitions may take the place of the one in force: then the latest of them is in force
that answers the call. -/
theorem inForce_mono {fs gs : List (Function ν)} {name : String} {arity : Nat} {d f : Callable ν}
    (hd : inForce fs name arity = some d) (hf : inForce (fs ++ gs) name arity = some f) :
    f = d ∨ ∃ before g after, gs = before ++ g :: after ∧ f = .defined g ∧
      (g.name = name ∧ g.arity = arity) ∧ ∀ g' ∈ after, ¬ (g'.name = name ∧ g'.arity = arity) := by
  rw [inForce_append, hd, ← List.map_reverse, List.find?_map] at hf
  cases hlater : gs.reverse.find? (Callable.answers name arity ∘ Callable.defined) with
  | none =>
      rw [hlater] at hf
      exact Or.inl (Option.some.inj hf).symm
  | some g =>
      rw [hlater] at hf
      cases hf
      obtain ⟨hanswers, after, before, hgs, hafter⟩ := List.find?_eq_some_iff_append.mp hlater
      refine Or.inr ⟨before.reverse, g, after.reverse, ?_, rfl, ?_, ?_⟩
      · have hreversed := congrArg List.reverse hgs
        simpa using hreversed
      · exact Callable.answers_iff.mp hanswers
      · intro g' hg' heq
        have hanswers' : (Callable.defined g').answers name arity = true :=
          Callable.answers_iff.mpr heq
        have hnot := hafter g' (List.mem_reverse.mp hg')
        simp [hanswers'] at hnot

/-! ## §2 Call nodes -/

namespace Typing.Site

/-- The callee of a call node is the one that its place has for it. -/
def Resolves (S : Site) (e : Expr Typed) : Prop :=
  ∀ o τ f name args, e = .call o τ f name args → S.findFunction name args.length = some f

variable {S : Site}

theorem Resolves.congr {S' : Site} (h : S'.functions = S.functions) {e : Expr Typed}
    (he : S'.Resolves e) : S.Resolves e := by
  intro o τ f name args heq
  rw [findFunction, ← h]
  exact he o τ f name args heq

theorem resolves_of_annotated {e : Expr Typed} (h : e.Annotated S) : S.Resolves e := by
  rintro o τ f name args rfl
  exact h.1

theorem resolves_of_stored {e : Expr Typed} {target : Ty} (h : e.Stored S target) :
    S.Resolves e := by
  unfold Expr.Stored at h
  split at h
  · intro o τ f name args heq
    cases heq
  · exact resolves_of_annotated h.1

theorem resolves_parts {e : Expr Typed} (h : S.Resolves e) (hinner : ∀ d ∈ e.inner, d.Annotated S) :
    ∀ d ∈ e.parts, S.Resolves d := by
  induction e using Expr.induct_inner with
  | step e ih =>
      rw [Expr.parts_eq, List.forall_mem_cons, List.forall_mem_flatMap]
      refine ⟨h, fun d hd => ?_⟩
      have hannotated := hinner d hd
      exact ih d hd (resolves_of_annotated hannotated) hannotated.inner

/-- Every call node in a statement has the callee that its place has for it. -/
theorem resolves_exprs {s : Stmt Typed} (h : s.Annotated S) : ∀ e ∈ s.exprs, S.Resolves e := by
  induction s using Stmt.induct_inner generalizing S with
  | step s ih =>
      intro e he
      rcases Stmt.mem_exprs.mp he with he | he
      · obtain ⟨d, hd, he⟩ := List.mem_flatMap.mp he
        rcases h.operands d hd with hd | ⟨target, hd⟩
        · exact resolves_parts (resolves_of_annotated hd) hd.inner e he
        · exact resolves_parts (resolves_of_stored hd) hd.inner e he
      · obtain ⟨t, ht, he⟩ := List.mem_flatMap.mp he
        -- Inside a block other variables are in sight, but the same functions.
        obtain ⟨S', hfunctions, hannotated⟩ := h.inner t ht
        exact (ih t ht hannotated e he).congr hfunctions

end Typing.Site

/-! ## §3 Runs -/

namespace Program

/-- **Overriding.** A function of the program takes the place of an earlier definition: it has the
same name and number of parameters, and no later one has. -/
def Overrides (p : Program ν) (g : Function ν) (d : Callable ν) : Prop :=
  ∃ before after, p.functions = before ++ g :: after ∧ d ∈ definitions before ∧
    (g.name = d.name ∧ g.arity = d.arity) ∧
    ∀ g' ∈ after, ¬ (g'.name = d.name ∧ g'.arity = d.arity)

variable {q : Program Typed}

/-- The binding of a definition has its name and its number of parameters. -/
theorem Annotated.binding_key (hq : q.Annotated) {d : Callable Typed}
    (hd : d ∈ definitions q.functions) : d.binding.name = d.name ∧ d.binding.arity = d.arity := by
  rcases List.mem_append.mp hd with hd | hd
  · obtain ⟨b, -, rfl⟩ := List.mem_map.mp hd
    exact ⟨rfl, rfl⟩
  · obtain ⟨f, hf, rfl⟩ := List.mem_map.mp hd
    obtain ⟨before, after, hsplit⟩ := List.append_of_mem hf
    have hannotated := hq.functions before f after hsplit
    exact ⟨hannotated.name, hannotated.params.length_eq.symm⟩

theorem functions_siteOfFunctions (q : Program Typed) (fs : List (Function Typed)) :
    (q.siteOfFunctions fs).functions = ((definitions fs).map Callable.binding).reverse := by
  rw [siteOfFunctions, Site.functions_foldl_define, siteOfGlobals, Site.functions_foldl_declare,
    definitions, List.map_append, List.reverse_append, List.map_map, List.map_map]
  rfl

/-- The checker finds the binding of the definition that is in force at its place. -/
theorem Annotated.findFunction (hq : q.Annotated) {before after : List (Function Typed)}
    (hsplit : q.functions = before ++ after) {name : String} {arity : Nat} {f : Callee}
    (hf : (q.siteOfFunctions before).findFunction name arity = some f) :
    ∃ d, inForce before name arity = some d ∧ d.binding = f := by
  rw [Site.findFunction, functions_siteOfFunctions, ← List.map_reverse, List.find?_map,
    Option.map_eq_some_iff] at hf
  obtain ⟨d, hd, rfl⟩ := hf
  refine ⟨d, ?_, rfl⟩
  rw [inForce, ← hd, ← List.head?_filter, ← List.head?_filter]
  refine congrArg _ (List.filter_congr fun c hc => ?_)
  have hmem : c ∈ definitions q.functions := by
    rw [hsplit, definitions_append]
    exact List.mem_append_left _ (List.mem_reverse.mp hc)
  obtain ⟨hname, harity⟩ := hq.binding_key hmem
  rw [Callable.answers, Function.comp_apply, hname, harity]

theorem mem_of_inForce {fs : List (Function ν)} {name : String} {arity : Nat} {d : Callable ν}
    (h : inForce fs name arity = some d) : d ∈ definitions fs ∧ d.name = name ∧ d.arity = arity :=
  ⟨List.mem_reverse.mp (List.mem_of_find?_eq_some h), Callable.answers_iff.mp (List.find?_some h)⟩

/-- A call node in a global has the binding of a built-in function. -/
theorem Annotated.globalCall (hq : q.Annotated) {o : Nat} {τ : Ty} {f : Callee} {name : String}
    {args : List (Expr Typed)} (h : .call o τ f name args ∈ q.globalExprs) :
    ∃ d, inForce [] name args.length = some d ∧ d.binding = f := by
  obtain ⟨g, hg, he⟩ := List.mem_flatMap.mp h
  obtain ⟨before, after, hsplit⟩ := List.append_of_mem hg
  obtain ⟨written, -, hvalue⟩ := (hq.globals before g after hsplit).type
  rw [Expr.someParts_eq] at he
  obtain ⟨e, hmem, he⟩ := List.mem_flatMap.mp he
  have hfound : (siteOfGlobals before).findFunction name args.length = some f := by
    rcases hvalue.value (Option.mem_toList.mp hmem) with hannotated | ⟨target, hstored⟩
    · exact Site.resolves_parts (Site.resolves_of_annotated hannotated) hannotated.inner _ he
        _ _ _ _ _ rfl
    · exact Site.resolves_parts (Site.resolves_of_stored hstored) hstored.inner _ he _ _ _ _ _ rfl
  -- Before the first function, what is in sight is what is in sight in the globals.
  have hbefore : (q.siteOfFunctions []).findFunction name args.length = some f := by
    rw [Site.findFunction, siteOfFunctions, List.map_nil, List.foldl_nil, siteOfGlobals,
      Site.functions_foldl_declare]
    rwa [Site.findFunction, siteOfGlobals, Site.functions_foldl_declare] at hfound
  exact hq.findFunction (List.nil_append _).symm hbefore

/-- A call node in a function has the binding of the definition in force there: of the latest one up
to the function itself. -/
theorem Annotated.bodyCall (hq : q.Annotated) {o : Nat} {τ : Ty} {f : Callee} {name : String}
    {args : List (Expr Typed)} (h : .call o τ f name args ∈ q.bodyExprs) :
    ∃ before after d, q.functions = before ++ after ∧ inForce before name args.length = some d ∧
      d.binding = f := by
  obtain ⟨g, hg, he⟩ := List.mem_flatMap.mp h
  obtain ⟨before, after, hsplit⟩ := List.append_of_mem hg
  have hsplit' : q.functions = (before ++ [g]) ++ after := by simpa using hsplit
  have hbody := (hq.functions before g after hsplit).body
  rw [Stmt.blockExprs_eq] at he
  obtain ⟨s, hs, he⟩ := List.mem_flatMap.mp he
  obtain ⟨S, hfunctions, hannotated⟩ := hbody.mem s hs
  have hfound := Site.resolves_exprs hannotated _ he _ _ _ _ _ rfl
  rw [Site.findFunction, hfunctions, Site.functions_foldl_declare] at hfound
  obtain ⟨d, hforce, hbinding⟩ := hq.findFunction hsplit' hfound
  exact ⟨before ++ [g], after, d, hsplit', hforce, hbinding⟩

/-- Bindings tell definitions apart. -/
theorem bindings_nodup {p : Program Bare} (h : p.check = .ok q) :
    ((definitions q.functions).map Callable.binding).Nodup := by
  have hfunctions : ∀ fs : List (Function Typed),
      (fs.map fun f => f.callee.id).Sublist (fs.flatMap Function.numbers) := by
    intro fs
    induction fs with
    | nil => exact .slnil
    | cons f fs ih => exact ((List.nil_sublist _).cons_cons f.callee.id).append ih
  -- The numbers of the bindings are among those of all declarations.
  apply List.Nodup.of_map (fun f : Callee => f.id)
  refine List.Nodup.sublist ?_ (numbers_nodup h)
  simp only [definitions, List.map_append, List.map_map]
  apply List.Sublist.append (List.Sublist.refl _)
  exact (hfunctions q.functions).trans (List.sublist_append_right _ _)

/-- What overrides a definition is in force for its calls when all functions are defined. -/
theorem Overrides.inForce_eq {p : Program ν} {g : Function ν} {d : Callable ν}
    (h : p.Overrides g d) : inForce p.functions d.name d.arity = some (.defined g) := by
  obtain ⟨before, after, hsplit, -, hkey, hlast⟩ := h
  have hlater : (after.map Callable.defined).reverse.find? (Callable.answers d.name d.arity) =
      none := by
    rw [List.find?_eq_none]
    intro c hc hanswers
    obtain ⟨g', hg', rfl⟩ := List.mem_map.mp (List.mem_reverse.mp hc)
    exact hlast g' hg' (Callable.answers_iff.mp hanswers)
  have hanswers : (Callable.defined g).answers d.name d.arity = true := Callable.answers_iff.mpr hkey
  rw [hsplit, inForce_append, List.map_cons, List.reverse_cons, List.find?_append, hlater,
    Option.none_or, List.find?_singleton, if_pos hanswers, Option.some_or]

/-- **Calls enter what they are bound to**, unless it was overridden.  Bindings tell the definitions
of a checked program apart.  A call that is made while the globals are evaluated enters the very
definition whose binding the checker wrote on the call node.  So does a call that is made after
that, unless the program overrides this definition: then the call enters what overrides it, the last
function of its name and number of parameters. -/
theorem calls_enter_bound {p : Program Bare} (h : p.check = .ok q) :
    ((definitions q.functions).map Callable.binding).Nodup ∧
      ∀ (n : Nat) (start : World) (callee : Callee) (f : Callable Typed) (args : List Value)
        (w : World),
        (.called callee f args w ∈ q.trail n start →
          .called callee f args w ∈ q.globalsTrail n start ∨
            .called callee f args w ∈ q.mainTrail n start) ∧
        (.called callee f args w ∈ q.globalsTrail n start →
          f ∈ definitions q.functions ∧ f.binding = callee) ∧
        (.called callee f args w ∈ q.mainTrail n start →
          ∃ d ∈ definitions q.functions, d.binding = callee ∧
            ((∀ g, ¬ q.Overrides g d) → f = d) ∧ ∀ g, q.Overrides g d → f = .defined g) := by
  obtain ⟨-, hq, -⟩ := check_noted h
  refine ⟨bindings_nodup h, fun n start callee f args w => ⟨?parts, ?globals, ?main⟩⟩
  case parts =>
    rw [trail_eq]
    exact List.mem_append.mp
  case globals =>
    intro hcalled
    obtain ⟨o, τ, name, es, hnode, hfound⟩ := q.globalsTrail_calls n start hcalled
    obtain ⟨d, hforce, hbinding⟩ := hq.globalCall hnode
    -- Both are the definition in force before any function of the program.
    have hsame : inForce [] name es.length = some f :=
      (findFunction_defineAll [] _ _).symm.trans hfound
    rw [hforce] at hsame
    cases hsame
    refine ⟨?_, hbinding⟩
    exact List.mem_append_left _ (by simpa [definitions] using (mem_of_inForce hforce).1)
  case main =>
    intro hcalled
    obtain ⟨o, τ, name, es, hnode, hfound⟩ := q.mainTrail_calls n start hcalled
    rw [findFunction_defineAll] at hfound
    obtain ⟨before, after, d, hsplit, hforce, hbinding⟩ := hq.bodyCall hnode
    obtain ⟨hmem, hname, harity⟩ := mem_of_inForce hforce
    rw [← hname, ← harity] at hforce hfound
    have hmem' : d ∈ definitions q.functions := by
      rw [hsplit, definitions_append]
      exact List.mem_append_left _ hmem
    refine ⟨d, hmem', hbinding, fun hkept => ?_, fun g hg => ?_⟩
    · -- A run looks among all definitions, the checker among those up to the node.
      have hfound' : inForce (before ++ after) d.name d.arity = some f := hsplit ▸ hfound
      rcases inForce_mono hforce hfound' with hsame | ⟨between, g, rest, rfl, -, hkey, hlast⟩
      · exact hsame
      · refine absurd ⟨before ++ between, rest, ?_, ?_, hkey, hlast⟩ (hkept g)
        · rw [hsplit, List.append_assoc]
        · rw [definitions_append]
          exact List.mem_append_left _ hmem
    · rw [hg.inForce_eq] at hfound
      exact (Option.some.inj hfound).symm

end Program

/-- A program in which two functions of one name and number of parameters are called, once before
and once after the second of them. -/
def recounting : String :=
  "FUN one(): Integer DO RETURN 1; END
  FUN first(): Integer DO RETURN one(); END
  FUN one(): Integer DO RETURN 2; END
  FUN main(): Integer DO print(one()); RETURN first(); END"

theorem recounting_enters_bound : Source.ChecksTo recounting fun q =>
    (q.run 20 (.start .recording)).1 = .done (.integer 2) ∧
      ∀ n callee f args w, .called callee f args w ∈ q.mainTrail n (.start .recording) →
        ∃ d ∈ definitions q.functions, d.binding = callee ∧
          ((∀ g, ¬ q.Overrides g d) → f = d) ∧ ∀ g, q.Overrides g d → f = .defined g := by
  have hchecks : Source.ChecksTo recounting fun q =>
      (q.run 20 (.start .recording)).1 = .done (.integer 2) := by
    decide +kernel
  obtain ⟨q, hcheck, hrun⟩ := hchecks
  obtain ⟨p, hp⟩ := Source.check_ok hcheck
  exact ⟨q, hcheck, hrun, fun n callee f args w =>
    ((Program.calls_enter_bound hp).2 n (.start .recording) callee f args w).2.2⟩

/-- **Bound calls.** When the text is checked and run, every call enters the very definition whose
binding is on the call node. -/
def Source.CallsBound (text : String) : Prop :=
  ∀ q, check text = .ok q → ∀ n output callee f args w,
    .called callee f args w ∈ q.trail n (.start output) → f.binding = callee

/-- A call that enters something else than what it is bound to. -/
private def isUnbound : Event Typed → Bool
  | .called callee f _ _ => f.binding ≠ callee
  | _ => false

/-- **Overriding cannot be left out**: a call that was checked before the second definition enters
it nevertheless. -/
theorem Source.recounting_not_bound : ¬ CallsBound recounting := by
  have hchecks : Source.ChecksTo recounting fun q =>
      (q.trail 20 (.start .recording)).any isUnbound = true := by
    decide +kernel
  obtain ⟨q, hcheck, hunbound⟩ := hchecks
  obtain ⟨ev, hev, hunbound⟩ := List.any_eq_true.mp hunbound
  intro hbound
  cases ev with
  | called callee f args w =>
      have hne : f.binding ≠ callee := of_decide_eq_true hunbound
      exact hne (hbound q hcheck 20 .recording callee f args w hev)
  | _ => cases hunbound

end DynImp
