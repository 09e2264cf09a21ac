import DynImp.Proofs.Run.Contract

/-!
# Pairs of computations

Two computations side by side, of two programs or of one program in two ways.  They are
paired if they end alike: both with values that belong together, or both with the same
fault, or neither within its bound; and the world is the same in the end.

There is one rule for every way in which the evaluator puts computations together.
-/

namespace DynImp

namespace Eval

section Pairs

variable {σ σ' α α' β β' : Type} [HasWorld σ] [HasWorld σ']

/-- **Paired results.** The same end in the same world.  Of two values and the states that come with
them `post` says whether they belong together. -/
inductive Paired (post : α → α' → σ → σ' → Prop) :
    Outcome Fault α × σ → Outcome Fault α' × σ' → Prop where
  | done {a a' s s'} : HasWorld.world s = HasWorld.world s' → post a a' s s' →
      Paired post (.done a, s) (.done a', s')
  | failed {e s s'} : HasWorld.world s = HasWorld.world s' →
      Paired post (.failed e, s) (.failed e, s')
  | unfinished {s s'} : HasWorld.world s = HasWorld.world s' →
      Paired post (.unfinished, s) (.unfinished, s')

/-- Values that are equal. -/
def Same (a a' : α) (_ : σ) (_ : σ') : Prop := a = a'

namespace Paired

variable {x : Run σ α} {x' : Run σ' α'} {s : σ} {s' : σ'} {post : α → α' → σ → σ' → Prop}

/-- One computation after another, on both sides. -/
theorem bind {f : α → Run σ β} {f' : α' → Run σ' β'} {mid : α → α' → σ → σ' → Prop}
    {post : β → β' → σ → σ' → Prop} (hx : Paired mid (x s) (x' s'))
    (hf : ∀ a a' t t', HasWorld.world t = HasWorld.world t' → mid a a' t t' →
      Paired post (f a t) (f' a' t')) :
    Paired post ((x >>= f) s) ((x' >>= f') s') := by
  rw [Run.bind_apply, Run.bind_apply]
  -- Both sides stop here, or both go on from states in which the world is the same.
  generalize x s = r at hx ⊢
  generalize x' s' = r' at hx ⊢
  cases hx with
  | done hw hmid => exact hf _ _ _ _ hw hmid
  | failed hw => exact .failed hw
  | unfinished hw => exact .unfinished hw

/-- What is known afterwards may be said in other words. -/
theorem imp {mid : α → α' → σ → σ' → Prop} {r : Outcome Fault α × σ} {r' : Outcome Fault α' × σ'}
    (h : Paired mid r r') (himp : ∀ a a' t t', mid a a' t t' → post a a' t t') :
    Paired post r r' := by
  cases h with
  | done hw hmid => exact .done hw (himp _ _ _ _ hmid)
  | failed hw => exact .failed hw
  | unfinished hw => exact .unfinished hw

/-- What is known of the end of one side is known of both. -/
theorem knowing {r : Outcome Fault α × σ} {r' : Outcome Fault α' × σ'} {Q : α → Prop}
    (h : Paired post r r') (hr : ∀ a, r.1 = .done a → Q a) :
    Paired (fun a a' t t' => post a a' t t' ∧ Q a) r r' := by
  cases h with
  | done hw hpost => exact .done hw ⟨hpost, hr _ rfl⟩
  | failed hw => exact .failed hw
  | unfinished hw => exact .unfinished hw

/-- Values that are only passed on in another form. -/
theorem map {g : α → β} {g' : α' → β'} {mid : α → α' → σ → σ' → Prop}
    {post : β → β' → σ → σ' → Prop} (hx : Paired mid (x s) (x' s'))
    (hg : ∀ a a' t t', mid a a' t t' → post (g a) (g' a') t t') :
    Paired post ((x >>= fun a => Pure.pure (g a)) s) ((x' >>= fun a => Pure.pure (g' a)) s') :=
  hx.bind fun _ _ _ _ hw hmid => .done hw (hg _ _ _ _ hmid)

/-! ### Worlds -/

/-- A computation beside itself. -/
theorem same (x : Run World α) (w : World) : Paired Same (x w) (x w) := by
  rcases x w with ⟨outcome, t⟩
  cases outcome with
  | done a => exact .done rfl rfl
  | failed e => exact .failed rfl
  | unfinished => exact .unfinished rfl

/-- Results that are equal are paired, and the other way round. -/
theorem eq_of_same {r r' : Outcome Fault α × World} (h : Paired Same r r') : r = r' := by
  cases h with
  | @done a a' s s' hw ha =>
      obtain rfl : s = s' := hw
      obtain rfl : a = a' := ha
      rfl
  | @failed e s s' hw =>
      obtain rfl : s = s' := hw
      rfl
  | @unfinished s s' hw =>
      obtain rfl : s = s' := hw
      rfl

/-- One computation on the world after another, where the values in between are equal: the rest runs
in the same world. -/
theorem bind_same {x x' : Run World α} {f : α → Run World β} {f' : α → Run World β'} {w : World}
    {post : β → β' → World → World → Prop} (hx : Paired Same (x w) (x' w))
    (hf : ∀ a t, Paired post (f a t) (f' a t)) :
    Paired post ((x >>= f) w) ((x' >>= f') w) := by
  refine hx.bind fun a a' t t' hw ha => ?_
  obtain rfl : t = t' := hw
  obtain rfl : a = a' := ha
  exact hf a t

end Paired

end Pairs

/-! ### Machines -/

namespace Paired

variable {ν ν' : Notes} {α α' : Type} {m : Machine ν} {m' : Machine ν'}

/-- What acts on the world alone leaves the scopes as they are. -/
theorem inWorld {x : RuntimeScope ν → Run World α} {x' : RuntimeScope ν' → Run World α'}
    {r : α → α' → Prop} (hw : m.world = m'.world)
    (hx : Paired (fun a a' _ _ => r a a') (x m.scope m.world) (x' m'.scope m.world)) :
    Paired (fun a a' t t' => r a a' ∧ t.scope = m.scope ∧ t'.scope = m'.scope)
      (Machine.inWorld x m) (Machine.inWorld x' m') := by
  unfold Machine.inWorld
  dsimp only
  rw [hw] at hx ⊢
  generalize x m.scope m'.world = r at hx ⊢
  generalize x' m'.scope m'.world = r' at hx ⊢
  cases hx with
  | done hw ha => exact .done hw ⟨ha, rfl, rfl⟩
  | failed hw => exact .failed hw
  | unfinished hw => exact .unfinished hw

/-- What a block does to its own frame is gone after it. -/
theorem inBlock {x : Run (Machine ν) α} {x' : Run (Machine ν') α'} {r : α → α' → Prop}
    (hx : Paired (fun a a' _ _ => r a a') (x ⟨m.scope.push, m.world⟩)
      (x' ⟨m'.scope.push, m'.world⟩)) :
    Paired (fun a a' t t' => r a a' ∧ t.scope = m.scope ∧ t'.scope = m'.scope)
      (Machine.inBlock x m) (Machine.inBlock x' m') := by
  unfold Machine.inBlock
  dsimp only
  generalize x ⟨m.scope.push, m.world⟩ = r at hx ⊢
  generalize x' ⟨m'.scope.push, m'.world⟩ = r' at hx ⊢
  cases hx with
  | done hw ha => exact .done hw ⟨ha, rfl, rfl⟩
  | failed hw => exact .failed hw
  | unfinished hw => exact .unfinished hw

theorem within {scope : RuntimeScope ν} {scope' : RuntimeScope ν'} {x : Run (Machine ν) α}
    {x' : Run (Machine ν') α'} {w : World} {r : α → α' → Prop}
    (hx : Paired (fun a a' _ _ => r a a') (x ⟨scope, w⟩) (x' ⟨scope', w⟩)) :
    Paired (fun a a' _ _ => r a a') (Machine.within scope x w) (Machine.within scope' x' w) := by
  unfold Machine.within
  generalize x ⟨scope, w⟩ = r at hx ⊢
  generalize x' ⟨scope', w⟩ = r' at hx ⊢
  cases hx with
  | done hw ha => exact .done hw ha
  | failed hw => exact .failed hw
  | unfinished hw => exact .unfinished hw

/-- The same cell is made for a new variable on both sides. -/
theorem declare {name : String} {mutable : Bool} {v : Value} (hw : m.world = m'.world) :
    Paired (fun _ _ t t' => ∃ cell, t.scope = m.scope.defineVariable name cell ∧
        t'.scope = m'.scope.defineVariable name cell)
      (Machine.declare name mutable v m) (Machine.declare name mutable v m') := by
  obtain ⟨scope, world⟩ := m
  obtain ⟨scope', world'⟩ := m'
  obtain rfl : world = world' := hw
  exact .done rfl ⟨_, rfl, rfl⟩

end Paired

end Eval

end DynImp
