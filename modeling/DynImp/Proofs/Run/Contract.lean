import DynImp.Eval.Trail
import DynImp.Proofs.Eval.Faults
import Mathlib.Order.Basic

/-!
# Contracts

A small program logic for computations.  A contract says what is known of the world at
every point of a run, what is known of each event of its trail, and which faults may
occur.  What is known grows: it is indexed by a preorder, and a computation leads from
one index to a later one.

* **Layer A: contracts** and what it means that a computation keeps one.
* **Layer B: rules**, one for every way in which the evaluator puts computations together,
  with its trail beside it.
-/

namespace DynImp

namespace Eval

/-! ## §1 Contracts -/

/-- The states that have a world in them. -/
class HasWorld (σ : Type) where
  /-- The world of a state. -/
  world : σ → World

instance : HasWorld World := ⟨id⟩

instance {ν : Notes} : HasWorld (Machine ν) := ⟨Machine.world⟩

/-- **Contract.** What is known in the course of a run. -/
structure Contract (κ : Type) [Preorder κ] (ν : Notes) where
  /-- What is known of the world as it is. -/
  world : κ → World → Prop
  /-- What is known of an event that has happened. -/
  event : κ → Event ν → Prop
  /-- What may be assumed of every event. -/
  assumed : Event ν → Prop
  /-- The faults that may occur. -/
  fault : Fault → Prop
  /-- What is known of an event is not forgotten. -/
  event_mono : ∀ {k k' : κ} {ev : Event ν}, k ≤ k' → event k ev → event k' ev

/-- What is known of values where nothing has to be known. -/
inductive Ignorance where
  | ignorance

instance : Preorder Ignorance where
  le _ _ := True
  le_refl _ := trivial
  le_trans _ _ _ _ _ := trivial

namespace Contract

variable {κ : Type} [Preorder κ] {ν : Notes} {σ α β : Type} [HasWorld σ]

/-- **Keeping a contract.** If all events of the computation are as assumed, then it ends with more
known than before: of the world, of every event on the way, and of the value if there is one. -/
def Keeps (C : Contract κ ν) (k : κ) (x : Run σ α) (t : Trail σ ν) (s : σ)
    (post : κ → α → σ → Prop) : Prop :=
  (∀ ev ∈ t s, C.assumed ev) →
    ∃ k', k ≤ k' ∧ C.world k' (HasWorld.world (x s).2) ∧ (∀ ev ∈ t s, C.event k' ev) ∧
      match (x s).1 with
      | .done a => post k' a (x s).2
      | .failed e => C.fault e
      | .unfinished => True

variable {C : Contract κ ν} {k : κ} {x : Run σ α} {t : Trail σ ν} {s : σ}
  {post : κ → α → σ → Prop}

namespace Keeps

/-! ## §2 Rules -/

/-- A computation that yields a value at once, and may change the world. -/
theorem done {a : α} {s' : σ} {k' : κ} (hx : x s = (.done a, s')) (hk : k ≤ k')
    (hw : C.world k' (HasWorld.world s')) (hp : post k' a s') :
    C.Keeps k x Trail.quiet s post := by
  intro _
  rw [hx]
  exact ⟨k', hk, hw, fun _ h => (List.not_mem_nil h).elim, hp⟩

theorem pure {a : α} (hw : C.world k (HasWorld.world s)) (hp : post k a s) :
    C.Keeps k (Pure.pure a) Trail.quiet s post :=
  done rfl (le_refl k) hw hp

theorem fail {e : Fault} (hw : C.world k (HasWorld.world s)) (he : C.fault e) :
    C.Keeps k (Run.fail e : Run σ α) Trail.quiet s post :=
  fun _ => ⟨k, le_refl k, hw, fun _ h => (List.not_mem_nil h).elim, he⟩

theorem unfinished (hw : C.world k (HasWorld.world s)) :
    C.Keeps k (Run.unfinished : Run σ α) Trail.quiet s post :=
  fun _ => ⟨k, le_refl k, hw, fun _ h => (List.not_mem_nil h).elim, trivial⟩

/-- A computation that leaves the state as it is. -/
theorem still (hstill : x.Still) (hw : C.world k (HasWorld.world s))
    (hdone : ∀ a, (x s).1 = .done a → post k a s)
    (hfail : ∀ e, (x s).1 = .failed e → C.fault e) : C.Keeps k x Trail.quiet s post := by
  intro _
  refine ⟨k, le_refl k, ?_, fun _ h => (List.not_mem_nil h).elim, ?_⟩
  · rw [hstill s]
    exact hw
  · rw [hstill s]
    cases hx : (x s).1 with
    | done a => exact hdone a hx
    | failed e => exact hfail e hx
    | unfinished => trivial

/-- A result that is already there: a value, or a fault that may occur. -/
theorem ofExcept {r : Except Fault α} (hw : C.world k (HasWorld.world s))
    (hok : ∀ a, r = .ok a → post k a s) (herror : ∀ e, r = .error e → C.fault e) :
    C.Keeps k (Run.ofExcept r) Trail.quiet s post := by
  cases r with
  | ok a => exact pure hw (hok a rfl)
  | error e => exact fail hw (herror e rfl)

/-- One computation after another. -/
theorem bind {f : α → Run σ β} {t' : α → Trail σ ν} {mid : κ → α → σ → Prop}
    {post : κ → β → σ → Prop} (hx : C.Keeps k x t s mid)
    (hf : ∀ k' a s', k ≤ k' → x s = (.done a, s') → C.world k' (HasWorld.world s') →
      mid k' a s' → C.Keeps k' (f a) (t' a) s' post) :
    C.Keeps k (x >>= f) (Trail.andThen x t t') s post := by
  intro hassumed
  obtain ⟨k', hk, hw, hev, hmid⟩ := hx fun ev h => hassumed ev (List.mem_append_left _ h)
  obtain ⟨outcome, s', hxs⟩ : ∃ outcome s', x s = (outcome, s') := ⟨_, _, rfl⟩
  have hbind := Run.bind_apply x f s
  simp only [Trail.andThen, hxs] at hassumed hw hmid ⊢
  rw [hxs] at hbind
  cases outcome with
  | done a =>
      -- The knowledge about the first part is carried over to the end of the second.
      obtain ⟨k'', hk', hw', hev', hpost⟩ :=
        hf k' a s' hk hxs hw hmid fun ev h => hassumed ev (List.mem_append_right _ h)
      rw [hbind]
      refine ⟨k'', le_trans hk hk', hw', ?_, hpost⟩
      intro ev h
      rcases List.mem_append.mp h with h | h
      · exact C.event_mono hk' (hev ev h)
      · exact hev' ev h
  | failed e =>
      rw [hbind]
      exact ⟨k', hk, hw, by simpa using hev, hmid⟩
  | unfinished =>
      rw [hbind]
      exact ⟨k', hk, hw, by simpa using hev, trivial⟩

/-- A computation after which nothing happens any more. -/
theorem bind_quiet {f : α → Run σ β} {mid : κ → α → σ → Prop} {post : κ → β → σ → Prop}
    (hx : C.Keeps k x t s mid)
    (hf : ∀ k' a s', k ≤ k' → x s = (.done a, s') → C.world k' (HasWorld.world s') →
      mid k' a s' → C.Keeps k' (f a) Trail.quiet s' post) :
    C.Keeps k (x >>= f) t s post := by
  rw [← Trail.andThen_quiet x t]
  exact bind hx hf

/-- A computation that starts by looking something up: the rest runs in the same state. -/
theorem bind_still {f : α → Run σ β} {t' : α → Trail σ ν} {post : κ → β → σ → Prop}
    (hstill : x.Still) (hw : C.world k (HasWorld.world s))
    (hfail : ∀ e, (x s).1 = .failed e → C.fault e)
    (hf : ∀ a, (x s).1 = .done a → C.Keeps k (f a) (t' a) s post) :
    C.Keeps k (x >>= f) (Trail.andThen x Trail.quiet t') s post := by
  have hx : C.Keeps k x Trail.quiet s fun k' a s' => k = k' ∧ s = s' ∧ (x s).1 = .done a := by
    refine still hstill hw ?_ hfail
    intro a ha
    exact ⟨rfl, rfl, ha⟩
  refine bind hx ?_
  rintro _ a _ - - - ⟨rfl, rfl, ha⟩
  exact hf a ha

theorem bind_still_quiet {f : α → Run σ β} {post : κ → β → σ → Prop}
    (hstill : x.Still) (hw : C.world k (HasWorld.world s))
    (hfail : ∀ e, (x s).1 = .failed e → C.fault e)
    (hf : ∀ a, (x s).1 = .done a → C.Keeps k (f a) Trail.quiet s post) :
    C.Keeps k (x >>= f) Trail.quiet s post := by
  rw [← Trail.andThen_quiet x Trail.quiet]
  exact bind_still hstill hw hfail hf

/-- A computation that starts with a result that is there, and is a value. -/
theorem bind_ok {r : Except Fault α} {a : α} {f : α → Run σ β} {t' : α → Trail σ ν}
    {post : κ → β → σ → Prop} (hr : r = .ok a) (hf : C.Keeps k (f a) (t' a) s post) :
    C.Keeps k (Run.ofExcept r >>= f) (Trail.andThen (Run.ofExcept r) Trail.quiet t') s post := by
  subst hr
  exact hf

/-- A value that is only passed on in another form. -/
theorem map {g : α → β} {mid : κ → α → σ → Prop} {post : κ → β → σ → Prop}
    (hx : C.Keeps k x t s mid) (hg : ∀ k' a s', k ≤ k' → mid k' a s' → post k' (g a) s') :
    C.Keeps k (x >>= fun a => Pure.pure (g a)) t s post :=
  bind_quiet hx fun k' a s' hk _ hw hmid => pure hw (hg k' a s' hk hmid)

/-- What is known afterwards may be said in other words. -/
theorem imp {mid : κ → α → σ → Prop} (hx : C.Keeps k x t s mid)
    (h : ∀ k' a s', k ≤ k' → mid k' a s' → post k' a s') : C.Keeps k x t s post := by
  intro hassumed
  obtain ⟨k', hk, hw, hev, hmid⟩ := hx hassumed
  refine ⟨k', hk, hw, hev, ?_⟩
  cases hxs : (x s).1 with
  | done a => rw [hxs] at hmid; exact h k' a _ hk hmid
  | failed e => rw [hxs] at hmid; exact hmid
  | unfinished => trivial

/-- An event in front. -/
theorem opening {event : σ → Event ν} (hev : C.event k (event s))
    (hx : C.assumed (event s) → C.Keeps k x t s post) :
    C.Keeps k x (Trail.opening event t) s post := by
  intro hassumed
  obtain ⟨k', hk, hw, hevs, hpost⟩ := hx (hassumed _ List.mem_cons_self)
    fun ev h => hassumed ev (List.mem_cons_of_mem _ h)
  refine ⟨k', hk, hw, ?_, hpost⟩
  intro ev h
  rcases List.mem_cons.mp h with rfl | h
  · exact C.event_mono hk hev
  · exact hevs ev h

/-- An event at the end, which may tell how the computation ended. -/
theorem closing {event : σ → Event ν} (hx : C.Keeps k x t s post)
    (hev : ∀ k', k ≤ k' → C.world k' (HasWorld.world (x s).2) →
      (∀ a, (x s).1 = .done a → post k' a (x s).2) → C.event k' (event s)) :
    C.Keeps k x (Trail.closing t event) s post := by
  intro hassumed
  obtain ⟨k', hk, hw, hevs, hpost⟩ := hx fun ev h => hassumed ev (List.mem_append_left _ h)
  refine ⟨k', hk, hw, ?_, hpost⟩
  intro ev h
  rcases List.mem_append.mp h with h | h
  · exact hevs ev h
  · obtain rfl := List.mem_singleton.mp h
    refine hev k' hk hw ?_
    intro a ha
    rw [ha] at hpost
    exact hpost

/-! ### Machines -/

variable {m : Machine ν}

theorem inWorld {x : RuntimeScope ν → Run World α} {t : RuntimeScope ν → Trail World ν}
    {post : κ → α → Machine ν → Prop}
    (hx : C.Keeps k (x m.scope) (t m.scope) m.world fun k' a w => post k' a ⟨m.scope, w⟩) :
    C.Keeps k (Machine.inWorld x) (Trail.inWorld t) m post := hx

theorem inBlock {x : Run (Machine ν) α} {t : Trail (Machine ν) ν}
    {post : κ → α → Machine ν → Prop}
    (hx : C.Keeps k x t ⟨m.scope.push, m.world⟩ fun k' a m' => post k' a ⟨m.scope, m'.world⟩) :
    C.Keeps k (Machine.inBlock x) (Trail.inBlock t) m post := hx

theorem within {scope : RuntimeScope ν} {x : Run (Machine ν) α} {t : Trail (Machine ν) ν}
    {w : World} {post : κ → α → World → Prop}
    (hx : C.Keeps k x t ⟨scope, w⟩ fun k' a m => post k' a m.world) :
    C.Keeps k (Machine.within scope x) (Trail.within scope t) w post := hx

/-- A declaration: the new cell is the one after all others. -/
theorem declare {name : String} {mutable : Bool} {v : Value}
    {event : Cell → World → Event ν} {next : Trail (Machine ν) ν}
    {f : Unit → Run (Machine ν) α} {post : κ → α → Machine ν → Prop} {k' : κ} (hk : k ≤ k')
    (hw : C.world k' (World.newCell v m.world).2)
    (hev : C.event k' (event ⟨m.world.cells.size, mutable⟩ (World.newCell v m.world).2))
    (hnext : C.Keeps k' (f ()) next
      ⟨m.scope.defineVariable name ⟨m.world.cells.size, mutable⟩, (World.newCell v m.world).2⟩
      post) :
    C.Keeps k (Machine.declare name mutable v >>= f) (Trail.declare name mutable v event next) m
      post := by
  have hdeclare : C.Keeps k (Machine.declare name mutable v) Trail.quiet m
      fun k₁ _ m' => k₁ = k' ∧ m' = ⟨m.scope.defineVariable name ⟨m.world.cells.size, mutable⟩,
        (World.newCell v m.world).2⟩ :=
    done rfl hk hw ⟨rfl, rfl⟩
  refine bind hdeclare ?_
  rintro _ _ _ - - - ⟨rfl, rfl⟩
  have hsize : (World.newCell v m.world).2.cells.size - 1 = m.world.cells.size := by
    simp [World.newCell]
  refine opening ?_ fun _ => hnext
  -- The event names the cell that was just made.
  rw [hsize]
  exact hev

/-! ### Built-in functions and lists -/

section Worlds

variable {w : World} {id : ListId} {index : Int}

/-- Printing yields nothing, and fails only where the output does. -/
theorem print {v : Value} {post : κ → Value → World → Prop} (hw : C.world k w)
    (hemit : ∀ text, C.world k (World.emit text w).2)
    (hfault : ∀ reason, C.fault (.output reason))
    (hpost : ∀ text, post k .nil (World.emit text w).2) :
    C.Keeps k (Eval.print v) Trail.quiet w post := by
  refine bind_still_quiet (.ask _) hw (fun e h => (Run.ask_ne_failed h).elim) fun text _ => ?_
  have hwritten : C.Keeps k (World.emit (text ++ "\n")) Trail.quiet w
      fun k' _ w' => k' = k ∧ w' = (World.emit (text ++ "\n") w).2 := by
    intro _
    refine ⟨k, le_refl k, hemit _, fun _ h => (List.not_mem_nil h).elim, ?_⟩
    cases hout : (World.emit (text ++ "\n") w).1 with
    | done u => exact ⟨rfl, rfl⟩
    | failed e =>
        obtain ⟨reason, rfl⟩ := emit_fails _ w e hout
        exact hfault reason
    | unfinished => trivial
  refine map hwritten ?_
  rintro _ _ _ - ⟨rfl, rfl⟩
  exact hpost _

theorem elementAt {post : κ → Value → World → Prop} (hw : C.world k w)
    (hpost : ∀ v ∈ w.heap.items id, post k v w)
    (hfault : ∀ length, C.fault (.indexOutOfBounds index length)) :
    C.Keeps k (elementAt id index) Trail.quiet w post := by
  refine still (elementAt_still id index) hw (fun v hv => ?_) fun e he => ?_
  · exact hpost v (elementAt_done hv)
  · obtain ⟨length, rfl⟩ := elementAt_fails id index w e he
    exact hfault length

/-- An element is replaced only after the list was not found in its new value, and at a place that
the list has. -/
theorem storeAt {v : Value} {post : κ → Unit → World → Prop} (hw : C.world k w)
    (hcyclic : C.fault .cyclicList)
    (hfault : ∀ length, C.fault (.indexOutOfBounds index length))
    (hset : ∀ place < (w.heap.items id).length, w.heap.contains? v id = some false →
      C.Keeps k (World.setItem id place v) Trail.quiet w post) :
    C.Keeps k (storeAt id index v) Trail.quiet w post := by
  -- The search, the bounds check and the change all see the same world.
  refine bind_still_quiet (.ask _) hw (fun e h => (Run.ask_ne_failed h).elim) fun found hfound => ?_
  cases found with
  | true => exact fail hw hcyclic
  | false =>
      refine bind_still_quiet (fun _ => rfl) hw (fun e h => by cases h) fun items hitems => ?_
      cases hitems
      refine bind_still_quiet (.ofExcept _) hw (fun e h => ?_) fun place hplace => ?_
      · rw [position_fault (Run.ofExcept_failed h)]
        exact hfault _
      · exact hset place (position_ok (Run.ofExcept_done hplace)) (Run.ask_done hfound)

end Worlds

end Keeps

end Contract

end Eval

end DynImp
