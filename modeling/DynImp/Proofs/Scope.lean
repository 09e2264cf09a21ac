import DynImp.Scope

/-!
# Lookups in scopes

What a lookup finds after a frame was opened and after a definition, and what holds of
everything it finds.
-/

namespace DynImp

namespace Scope

variable {V F : Type} (s : Scope V F)

/-! ## §1 Lookups after a change -/

@[simp] theorem findVariable_push (name : String) :
    s.push.findVariable name = s.findVariable name := rfl

@[simp] theorem findFunction_push (name : String) (arity : Nat) :
    s.push.findFunction name arity = s.findFunction name arity := rfl

theorem findVariable_defineVariable (name : String) (v : V) (other : String) :
    (s.defineVariable name v).findVariable other =
      if other = name then some v else s.findVariable other := by
  -- A definition goes to the front of the innermost frame, where every lookup starts.
  by_cases h : other = name
  · subst h
    simp [findVariable, frames, defineVariable]
  · simp only [findVariable, frames, defineVariable, List.findSome?_cons, List.lookup_cons,
      beq_false_of_ne h, h, if_false]

@[simp] theorem findFunction_defineVariable (name : String) (v : V) (other : String)
    (arity : Nat) :
    (s.defineVariable name v).findFunction other arity = s.findFunction other arity := rfl

@[simp] theorem findVariable_defineFunction (name : String) (arity : Nat) (f : F)
    (other : String) :
    (s.defineFunction name arity f).findVariable other = s.findVariable other := rfl

theorem findFunction_defineFunction (name : String) (arity : Nat) (f : F) (other : String)
    (arity' : Nat) :
    (s.defineFunction name arity f).findFunction other arity' =
      if other = name ∧ arity' = arity then some f else s.findFunction other arity' := by
  by_cases h : (other, arity') = (name, arity)
  · obtain ⟨rfl, rfl⟩ := Prod.mk.inj h
    simp [findFunction, frames, defineFunction]
  · have hne : ¬ (other = name ∧ arity' = arity) := fun ⟨h₁, h₂⟩ => h (by rw [h₁, h₂])
    simp only [findFunction, frames, defineFunction, List.findSome?_cons, List.lookup_cons,
      beq_false_of_ne h, hne, if_false]

/-- After definitions in a row, a lookup finds the latest one that it is for. -/
theorem findFunction_defineEach {α : Type} (name : α → String) (arity : α → Nat) (f : α → F)
    (as : List α) (other : String) (arity' : Nat) :
    (as.foldl (fun s a => s.defineFunction (name a) (arity a) (f a)) s).findFunction other arity' =
      ((as.reverse.find? fun a => name a = other ∧ arity a = arity').map f).or
        (s.findFunction other arity') := by
  induction as generalizing s with
  | nil => rfl
  | cons a as ih =>
      rw [List.foldl_cons, ih, findFunction_defineFunction, List.reverse_cons, List.find?_append,
        Option.map_or, Option.or_assoc]
      congr 1
      by_cases h : name a = other ∧ arity a = arity'
      · simp [h.1, h.2]
      · have hne : ¬ (other = name a ∧ arity' = arity a) := fun ⟨h₁, h₂⟩ => h ⟨h₁.symm, h₂.symm⟩
        simp [h, hne]

variable {s}

theorem lookupVariable_ok {name : String} {v : V} :
    s.lookupVariable name = .ok v ↔ s.findVariable name = some v := by
  unfold lookupVariable
  cases s.findVariable name <;> simp

theorem lookupFunction_ok {name : String} {arity : Nat} {f : F} :
    s.lookupFunction name arity = .ok f ↔ s.findFunction name arity = some f := by
  unfold lookupFunction
  cases s.findFunction name arity <;> simp

/-! ## §2 What holds of every variable -/

/-- Every variable binding of every frame has a property, also one that a lookup does not find. -/
def EachVariable (P : V → Prop) (s : Scope V F) : Prop :=
  ∀ frame ∈ s.frames, ∀ entry ∈ frame.vars, P entry.2

namespace EachVariable

variable {P Q : V → Prop}

theorem imp (hs : EachVariable P s) (h : ∀ v, P v → Q v) : EachVariable Q s :=
  fun frame hframe entry hentry => h _ (hs frame hframe entry hentry)

theorem find (hs : EachVariable P s) {name : String} {v : V}
    (hfind : s.findVariable name = some v) : P v := by
  obtain ⟨frame, hframe, hlookup⟩ := List.exists_of_findSome?_eq_some hfind
  obtain ⟨before, after, hvars, -⟩ := List.lookup_eq_some_iff.mp hlookup
  exact hs frame hframe (name, v) (by simp [hvars])

theorem root : EachVariable P (root : Scope V F) := by
  intro frame hframe entry hentry
  obtain rfl := List.mem_singleton.mp hframe
  exact (List.not_mem_nil hentry).elim

theorem push (hs : EachVariable P s) : EachVariable P s.push := by
  -- The new frame is empty, and all others are as before.
  intro frame hframe entry hentry
  rcases List.mem_cons.mp hframe with rfl | hframe
  · exact (List.not_mem_nil hentry).elim
  · exact hs frame hframe entry hentry

theorem defineVariable (hs : EachVariable P s) {name : String} {v : V} (hv : P v) :
    EachVariable P (s.defineVariable name v) := by
  intro frame hframe entry hentry
  rcases List.mem_cons.mp hframe with rfl | hframe
  · rcases List.mem_cons.mp hentry with rfl | hentry
    · exact hv
    · exact hs s.inner List.mem_cons_self entry hentry
  · exact hs frame (List.mem_cons_of_mem _ hframe) entry hentry

theorem defineFunction (hs : EachVariable P s) {name : String} {arity : Nat} {f : F} :
    EachVariable P (s.defineFunction name arity f) := by
  intro frame hframe entry hentry
  rcases List.mem_cons.mp hframe with rfl | hframe
  · exact hs s.inner List.mem_cons_self entry hentry
  · exact hs frame (List.mem_cons_of_mem _ hframe) entry hentry

theorem defineEach {α : Type} {name : α → String} {arity : α → Nat} {f : α → F}
    (hs : EachVariable P s) (as : List α) :
    EachVariable P (as.foldl (fun s a => s.defineFunction (name a) (arity a) (f a)) s) := by
  induction as generalizing s with
  | nil => exact hs
  | cons a as ih => exact ih hs.defineFunction

end EachVariable

end Scope

end DynImp
