import DynImp.Proofs.Run.StoreTyping

/-!
# Type preservation

One store typing fits a whole run: at every point of it expressions have values of their
types, cells values of the types of their variables, and lists elements of their element
types.  This needs a program within limits, which say what the checker leaves open:
variables without a value, bodies that fall off their end, locals that hide globals,
functions of one name, and integers to a negative power.
-/

namespace DynImp

namespace Eval

open Typing

/-! ## §1 Contracts -/

/-- **Exponents.** Why no integer is raised to a negative power: because of what is known of the
operands, of the run, or of both. -/
structure Exponents where
  /-- What is known of the operands. -/
  power : Expr Typed → Expr Typed → Prop
  /-- What is known of the run. -/
  assumed : Event Typed → Prop
  nonneg : ∀ {left right i j w}, power left right → left.type = .integer →
    (∀ o σ s, right = .literal o σ s → Value.integer j = .scalar s) →
    assumed (.applied .power (.integer i) (.integer j) w) → 0 ≤ j

/-- **Strict limits**: types mean what they say. -/
def strictLimits (power : Expr Typed → Expr Typed → Prop) : Limits :=
  ⟨fun τ => τ = .any ∨ τ = .nil, fun τ σ => τ = σ, power⟩

/-- **Typed events.** The worlds of the event are described, and what the notes say of values and
cells is so. -/
def StoreTyping.Respects (S : StoreTyping) : Event Typed → Prop
  | .evaluated _ e before (outcome, after) =>
    S.Describes before ∧ S.Describes after ∧ ∀ v, outcome = .done v → S.Admits e.type v
  | .executed _ before (_, after) => S.Describes before.world ∧ S.Describes after.world
  | .applied _ _ _ world => S.Describes world
  | .bound x cell world => S.Describes world ∧ S.cells[cell.location]? = some x.type
  | .called f _ args world => S.Describes world ∧ List.Forall₂ S.Admits f.signature.params args
  | .passed f index cell world =>
    S.Describes world ∧
      ∃ τ, f.signature.params[index]? = some τ ∧ S.cells[cell.location]? = some τ

theorem StoreTyping.Respects.mono {S S' : StoreTyping} {ev : Event Typed} (h : S.Respects ev)
    (hS : S ≤ S') : S'.Respects ev := by
  cases ev with
  | evaluated scope e before result =>
      obtain ⟨hbefore, hafter, hvalue⟩ := h
      exact ⟨hbefore.mono hS, hafter.mono hS, fun v hv => (hvalue v hv).mono hS⟩
  | executed s before result => exact ⟨h.1.mono hS, h.2.mono hS⟩
  | applied op a b world => exact StoreTyping.Describes.mono h hS
  | bound x cell world => exact ⟨h.1.mono hS, StoreTyping.cells_mono hS h.2⟩
  | called f c args world => exact ⟨h.1.mono hS, h.2.imp fun _ _ hv => hv.mono hS⟩
  | passed f index cell world =>
      obtain ⟨hworld, τ, hτ, hcell⟩ := h
      exact ⟨hworld.mono hS, τ, hτ, StoreTyping.cells_mono hS hcell⟩

/-- The contract of typed runs. -/
def typedContract (exponents : Exponents) : Contract StoreTyping Typed where
  world S w := S.Fits w
  event S ev := S.Respects ev
  assumed := exponents.assumed
  fault := Fault.Ordinary
  event_mono hS h := h.mono hS

/-! ## §2 The model -/

section Model

variable {exponents : Exponents} {S : StoreTyping} {w : World}

/-- A computation that leaves the world as it is and yields a scalar of a type. -/
private theorem yields_keeps {x : Run World Value} {τ : Ty} (hw : S.Fits w) (hstill : x.Still)
    (h : (x w).1.Yields τ) :
    (typedContract exponents).Keeps S x Trail.quiet w fun S' v _ => S'.Admits τ v := by
  refine .still hstill hw (fun v hv => ?_) fun e he => ?_
  · rw [hv] at h
    obtain ⟨s, rfl, hs⟩ := h
    exact StoreTyping.admits_scalar hs
  · rw [he] at h
    exact h

private theorem callBuiltin_keeps {b : Builtin} {args : List Value} (hw : S.Fits w)
    (hargs : List.Forall₂ S.Admits b.signature.params args) :
    (typedContract exponents).Keeps S (callBuiltin b args) Trail.quiet w
      fun S' v _ => S'.Admits b.signature.result v := by
  cases b with
  | print =>
      obtain ⟨v, rest, -, hrest, rfl⟩ := List.forall₂_cons_left_iff.mp hargs
      obtain rfl := List.forall₂_nil_left_iff.mp hrest
      exact .print hw hw.emit (fun _ => trivial) fun _ => StoreTyping.admits_scalar rfl
  | log =>
      obtain ⟨v, rest, hv, hrest, rfl⟩ := List.forall₂_cons_left_iff.mp hargs
      obtain rfl := List.forall₂_nil_left_iff.mp hrest
      exact yields_keeps hw (.ofExcept _) (log_typed hv.1)
  | converter =>
      obtain ⟨number, rest, hnumber, hrest, rfl⟩ := List.forall₂_cons_left_iff.mp hargs
      obtain ⟨base, rest', hbase, hrest', rfl⟩ := List.forall₂_cons_left_iff.mp hrest
      obtain rfl := List.forall₂_nil_left_iff.mp hrest'
      exact yields_keeps hw (.ofExcept _) (converter_typed hnumber.1 hbase.1)

/-- **The model of store typings.** -/
def typedModel (exponents : Exponents) : Model StoreTyping (strictLimits exponents.power) where
  toContract := typedContract exponents
  value S τ v := S.Admits τ v
  cell S τ c := S.cells[c]? = some τ
  value_mono hS h := h.mono hS
  cell_mono hS h := StoreTyping.cells_mono hS h
  scalar s := StoreTyping.admits_scalar (Ty.allows_ofScalar s)
  accepts haccepts h := h.accepts haccepts
  blank h := by
    rcases h with rfl | rfl <;> exact StoreTyping.admits_scalar rfl
  same h hv := by
    cases h
    exact hv
  same_cell h hc := by
    cases h
    exact hc
  asBoolean hw hv := by
    obtain ⟨b, rfl⟩ := Value.eq_boolean hv.1
    exact .pure hw trivial
  asInteger hw hv := by
    obtain ⟨i, rfl⟩ := Value.eq_integer hv.1
    exact .pure hw trivial
  asList hw hv := by
    obtain ⟨id, rfl⟩ := Value.eq_list hv.1
    exact .pure hw hv
  readCell {S w τ c} hw hc := by
    refine .still (fun _ => rfl) hw (fun v hv => ?_) fun e he => by cases he
    cases hv
    -- The cell has a type, so it is there.
    have hlt : c < w.cells.size := by
      obtain ⟨hlt, -⟩ := List.getElem?_eq_some_iff.mp hc
      rwa [hw.cells_length] at hlt
    rw [Array.getD_eq_getD_getElem?, Array.getElem?_eq_getElem hlt]
    exact hw.cells c τ _ hc (Array.getElem?_eq_getElem hlt)
  elementAt index hw hid := .elementAt hw (hw.lists _ _ hid.list_id) fun _ => trivial
  newList hw hitems := by
    obtain ⟨hfits, hid⟩ := hw.newList hitems
    exact .done rfl (StoreTyping.le_addList _ _) hfits (StoreTyping.admits_list hid)
  newCell hw hv := by
    obtain ⟨hfits, hcell⟩ := hw.newCell hv
    exact ⟨_, StoreTyping.le_addCell _ _, hfits, hcell⟩
  writeCell {S _ _ _ _} hw hc hv := .done rfl (le_refl S) (hw.writeCell hc hv) trivial
  storeAt {S w τ id v} index hw hid hv := by
    refine .storeAt hw trivial (fun _ => trivial) fun place _ _ => ?_
    exact .done rfl (le_refl S) (hw.setItem hid.list_id hv) trivial
  apply {S w op left right τ a b} hw hand hor hop hpower ha hb hliteral hassumed := by
    refine yields_keeps hw (apply_still op a b) (apply_typed hand hor hop ha.1 hb.1 ?_)
    -- What is left to show is that no integer is raised to a negative power.
    rintro rfl i j rfl rfl
    have hinteger : left.type = .integer := by
      simp only [operatorType?] at hop
      split at hop
      · next hnumeric => exact Ty.eq_integer hnumeric.1 ha.1
      · cases hop
    exact exponents.nonneg (hpower rfl) hinteger hliteral hassumed
  callBuiltin b hw hargs := callBuiltin_keeps hw hargs
  evaluated hS hbefore hafter hv := ⟨hbefore.toDescribes.mono hS, hafter.toDescribes, hv⟩
  executed hS hbefore hafter := ⟨hbefore.toDescribes.mono hS, hafter.toDescribes⟩
  applied hw := hw.toDescribes
  bound hw hc := ⟨hw.toDescribes, hc⟩
  called hw hargs := ⟨hw.toDescribes, hargs⟩
  passed hw hτ hc := ⟨hw.toDescribes, _, hτ, hc⟩

end Model

end Eval

/-! ## §3 Runs -/

open Typing Eval

/-- **One store typing for a whole run** of a checked program within strict limits, as long as the
run raises no integer to a negative power. -/
theorem Program.run_typed {p : Program Bare} {q : Program Typed} (exponents : Exponents)
    (h : p.check = .ok q) (hlimits : (strictLimits exponents.power).AllowsProgram q) (n : Nat)
    (output : Output) (hassumed : ∀ ev ∈ q.trail n (.start output), exponents.assumed ev) :
    ∃ S : StoreTyping, (∀ ev ∈ q.trail n (.start output), S.Respects ev) ∧
      S.Fits (q.run n (.start output)).2 ∧
      match (q.run n (.start output)).1 with
      | .done v => ∃ i, v = .integer i
      | .failed e => e.Ordinary
      | .unfinished => True := by
  have hok := check_sound h hlimits
  obtain ⟨S, -, hfits, hevents, hend⟩ := (typedModel exponents).run_keeps n hok
    (StoreTyping.empty_fits output) hassumed
  refine ⟨S, hevents, hfits, ?_⟩
  cases hrun : (q.run n (.start output)).1 with
  | done v =>
      rw [hrun] at hend
      exact Value.eq_integer hend.1
  | failed e =>
      rw [hrun] at hend
      exact hend
  | unfinished => trivial

end DynImp
