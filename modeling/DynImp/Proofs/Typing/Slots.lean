import DynImp.Proofs.Typing.Annotation
import Mathlib.Data.List.Nodup

/-!
# What is offered to the slots of a tree

A tree whose notes are slots, and what the checker offers to these slots while it walks
through the tree: step by step in the order of the checker, and no further than the first
fault.  When a program is accepted, its slots have been offered the notes of the checked
program, each slot one note and one time.

What is offered follows the checker clause by clause.  Nothing runs it: it is there to say
of a walk through the tree what the walk leaves in it.
-/

namespace DynImp

/-! ## §1 Notes in order -/

/-- **Note.** A note on a tree, of any kind. -/
inductive Note (ν : Notes) where
  | type (τ : ν.type)
  | binding (x : ν.binding)
  | callee (f : ν.callee)

variable {ν : Notes}

mutual

/-- The notes on an expression, in the order in which they are found: what a name stands for before
the parts, and the type behind them. -/
def Expr.notes : Expr ν → List (Note ν)
  | .literal _ τ _ => [.type τ]
  | .group _ τ inner => inner.notes ++ [.type τ]
  | .binary τ _ left right => left.notes ++ (right.notes ++ [.type τ])
  | .var _ τ x _ => [.binding x, .type τ]
  | .element _ τ x _ index => .binding x :: (index.notes ++ [.type τ])
  | .call _ τ f _ args => .callee f :: (Expr.allNotes args ++ [.type τ])
  | .list _ τ items => Expr.allNotes items ++ [.type τ]

/-- The notes on expressions in a row. -/
def Expr.allNotes : List (Expr ν) → List (Note ν)
  | [] => []
  | e :: rest => e.notes ++ Expr.allNotes rest

end

/-- The notes on an expression that may be missing. -/
def Expr.someNotes : Option (Expr ν) → List (Note ν)
  | none => []
  | some e => e.notes

mutual

/-- The notes on a statement. -/
def Stmt.notes : Stmt ν → List (Note ν)
  | .perform e => e.notes
  | .declare _ x _ _ value => Expr.someNotes value ++ [.binding x]
  | .assign receiver value => receiver.notes ++ value.notes
  | .choose condition yes no => condition.notes ++ (Stmt.blockNotes yes ++ Stmt.blockNotes no)
  | .switch subject cases => subject.notes ++ Stmt.casesNotes cases
  | .loop condition body => condition.notes ++ Stmt.blockNotes body
  | .giveBack value => value.notes

/-- The notes on a block. -/
def Stmt.blockNotes : List (Stmt ν) → List (Note ν)
  | [] => []
  | s :: rest => s.notes ++ Stmt.blockNotes rest

/-- The notes on cases. -/
def Stmt.casesNotes : List (Case ν) → List (Note ν)
  | [] => []
  | .mk _ value body :: rest =>
    Expr.someNotes value ++ (Stmt.blockNotes body ++ Stmt.casesNotes rest)

end

/-- The notes on a global. -/
def Global.notes (g : Global ν) : List (Note ν) := Expr.someNotes g.value ++ [.binding g.binding]

/-- The notes on a function. -/
def Function.notes (f : Function ν) : List (Note ν) := .callee f.callee :: Stmt.blockNotes f.body

/-- The notes on a program. -/
def Program.notes (p : Program ν) : List (Note ν) :=
  p.globals.flatMap Global.notes ++ p.functions.flatMap Function.notes

/-! ## §2 Offers -/

/-- **Offer.** A slot, which is a note itself in a tree of slots, and the note that is written into
it if it is empty. -/
structure Offer (ν : Notes) where
  slot : Note ν
  note : Note Typed

namespace Typing

/-- What is offered in a step, and after it if it does not fail. -/
def andThen {α : Type} (offers : List (Offer ν)) (x : Except TypeError α)
    (next : α → List (Offer ν)) : List (Offer ν) :=
  offers ++
    match x with
    | .ok a => next a
    | .error _ => []

/-- The type of an expression is offered as soon as it is known. -/
def offerType (slot : ν.type) (inferred : Except TypeError (Expr Typed)) : List (Offer ν) :=
  andThen [] inferred fun e => [⟨.type slot, .type e.type⟩]

end Typing

open Typing

mutual

/-- What is offered while an expression is inferred. -/
def Expr.offers (Γ : StaticScope) : Expr ν → List (Offer ν)
  | .literal o τ value => offerType τ (infer Γ (.literal o () value))
  | .group o τ inner =>
    if isBinary inner then inner.offers Γ ++ offerType τ (infer Γ (.group o () inner.bare)) else []
  | .binary τ op left right =>
    andThen (left.offers Γ) (infer Γ left.bare) fun _ =>
      right.offers Γ ++ offerType τ (infer Γ (.binary () op left.bare right.bare))
  | .var o τ x name =>
    andThen [] (resolveVariable Γ o name) fun found =>
      ⟨.binding x, .binding found⟩ :: offerType τ (infer Γ (.var o () () name))
  | .element o τ x name index =>
    andThen [] (resolveVariable Γ o name) fun found =>
      ⟨.binding x, .binding found⟩ ::
        match found.type with
        | .list _ => index.offers Γ ++ offerType τ (infer Γ (.element o () () name index.bare))
        | _ => []
  | .call o τ f name args =>
    andThen [] (resolveCallee Γ o name args.length) fun found =>
      ⟨.callee f, .callee found⟩ ::
        (Expr.eachOffers Γ args found.signature.params ++
          offerType τ (infer Γ (.call o () () name (Expr.allBare args))))
  | .list o τ items =>
    match items with
    | [] => []
    | first :: others =>
      andThen (first.offers Γ) (infer Γ first.bare) fun found =>
        Expr.eachOffers Γ others (List.replicate others.length found.type) ++
          offerType τ (infer Γ (.list o () (first.bare :: Expr.allBare others)))

/-- What is offered while expressions are inferred for the slots at their places.  An expression
without one is passed over. -/
def Expr.eachOffers (Γ : StaticScope) : List (Expr ν) → List Ty → List (Offer ν)
  | [], _ => []
  | _ :: _, [] => []
  | e :: es, target :: targets =>
    andThen (e.offers Γ)
      (do
        let inferred ← infer Γ e.bare
        requireAssignable target inferred.type e.offset)
      fun _ => Expr.eachOffers Γ es targets

end

/-- What is offered while a value is stored. -/
def Expr.storedOffers (Γ : StaticScope) (target : Ty) (value : Expr ν) : List (Offer ν) :=
  match target, value with
  | .list σ, .list o τ items =>
    Expr.eachOffers Γ items (List.replicate items.length σ) ++
      offerType τ (inferFor Γ (.list σ) (.list o () (Expr.allBare items)))
  | _, _ => value.offers Γ

/-- What is offered while an expression that may be missing is inferred. -/
def Expr.someOffers (Γ : StaticScope) : Option (Expr ν) → List (Offer ν)
  | none => []
  | some e => e.offers Γ

/-- What is offered while the initial value of a variable is stored. -/
def Expr.initialOffers (Γ : StaticScope) : Option Ty → Option (Expr ν) → List (Offer ν)
  | some target, some value => value.storedOffers Γ target
  | _, value => Expr.someOffers Γ value

/-- What is offered while a receiver is resolved. -/
def Expr.receiverOffers (Γ : StaticScope) : Expr ν → List (Offer ν)
  | .var o τ x name => (Expr.var o τ x name).offers Γ
  | .element o τ x name index => (Expr.element o τ x name index).offers Γ
  | _ => []

mutual

/-- What is offered while a statement is checked. -/
def Stmt.offers (result : Ty) : Env → Stmt ν → List (Offer ν)
  | env, .perform e =>
    match e with
    | .call .. => e.offers env.scope
    | _ => []
  | env, .declare o x name typeName value =>
    andThen [] (resolveType o typeName) fun declared =>
      andThen (Expr.initialOffers env.scope declared value)
        (inferInitial env.scope o name declared (value.map Expr.bare)) fun (type, _) =>
          [⟨.binding x, .binding (env.declare name true type).1⟩]
  | env, .assign receiver value =>
    andThen (receiver.receiverOffers env.scope) (inferReceiver env.scope receiver.bare) fun found =>
      value.storedOffers env.scope found.type
  | env, .choose condition yes no =>
    andThen (condition.offers env.scope) (inferCondition env.scope condition.bare) fun _ =>
      andThen (Stmt.blockOffers result env.enter yes)
        (checkBlock result env.enter (Stmt.blockBare yes)) fun (_, inner) =>
          Stmt.blockOffers result (env.leave inner).enter no
  | env, .switch subject cases =>
    andThen (subject.offers env.scope) (infer env.scope subject.bare) fun found =>
      Stmt.casesOffers result found.type env cases
  | env, .loop condition body =>
    andThen (condition.offers env.scope) (inferCondition env.scope condition.bare) fun _ =>
      Stmt.blockOffers result env.enter body
  | env, .giveBack value => value.offers env.scope

/-- What is offered while a block is checked. -/
def Stmt.blockOffers (result : Ty) : Env → List (Stmt ν) → List (Offer ν)
  | _, [] => []
  | env, s :: rest =>
    andThen (s.offers result env) (checkStmt result env s.bare) fun (_, env) =>
      Stmt.blockOffers result env rest

/-- What is offered while cases are checked. -/
def Stmt.casesOffers (result subject : Ty) : Env → List (Case ν) → List (Offer ν)
  | _, [] => []
  | env, .mk o value body :: rest =>
    andThen (Expr.someOffers env.scope value)
      (match value with
      | some value => do
        let inferred ← infer env.scope value.bare
        requireAssignable subject inferred.type value.offset
      | none => if rest.isEmpty then .ok () else .error ⟨o, .misplacedDefault⟩)
      fun _ =>
        andThen (Stmt.blockOffers result env.enter body)
          (checkBlock result env.enter (Stmt.blockBare body)) fun (_, inner) =>
            Stmt.casesOffers result subject (env.leave inner) rest

end

/-- What is offered while a global is checked. -/
def Global.offers (env : Env) (g : Global ν) : List (Offer ν) :=
  andThen [] (resolveType g.offset g.typeName) fun written =>
    andThen
      (Expr.initialOffers env.scope (if g.isList then written.map .list else written) g.value)
      (checkGlobal env g.bare) fun (checked, _) => [⟨.binding g.binding, .binding checked.binding⟩]

/-- What is offered while a function is checked. -/
def Function.offers (env : Env) (f : Function ν) : List (Offer ν) :=
  andThen [] (resolveParams f.offset f.params) fun types =>
    andThen [] (resolveType f.offset f.returnTypeName) fun written =>
      let (callee, env) := env.define f.name ⟨types, written.getD .nil⟩
      ⟨.callee f.callee, .callee callee⟩ ::
        Stmt.blockOffers (written.getD .nil) (declareParams env.enter f.params types) f.body

/-- What is offered while items of one kind are checked. -/
def Typing.itemOffers {α β : Type} (offers : Env → α → List (Offer ν))
    (check : Env → α → Except TypeError (β × Env)) : Env → List α → List (Offer ν)
  | _, [] => []
  | env, a :: rest =>
    andThen (offers env a) (check env a) fun (_, env) => itemOffers offers check env rest

/-- **Offers.** What is offered to the slots of a program while it is checked. -/
def Program.offers (p : Program ν) : List (Offer ν) :=
  andThen (itemOffers Global.offers (fun env g => checkGlobal env g.bare) .initial p.globals)
    (checkEach checkGlobal .initial (p.globals.map Global.bare)) fun (_, env) =>
      itemOffers Function.offers (fun env f => checkFunction env f.bare) env p.functions

/-! ## §3 Filled slots -/

namespace Typing

/-- **Filled slots.** The slots are offered these notes, slot by slot. -/
structure Filled (offers : List (Offer ν)) (slots : List (Note ν)) (notes : List (Note Typed)) :
    Prop where
  slots : offers.map Offer.slot = slots
  notes : offers.map Offer.note = notes

namespace Filled

variable {offers offers' : List (Offer ν)} {slots slots' : List (Note ν)}
  {notes notes' : List (Note Typed)}

theorem nil : Filled ([] : List (Offer ν)) [] [] := ⟨rfl, rfl⟩

theorem cons {slot : Note ν} {note : Note Typed} (h : Filled offers slots notes) :
    Filled (⟨slot, note⟩ :: offers) (slot :: slots) (note :: notes) :=
  ⟨congrArg (slot :: ·) h.slots, congrArg (note :: ·) h.notes⟩

theorem append (h : Filled offers slots notes) (h' : Filled offers' slots' notes') :
    Filled (offers ++ offers') (slots ++ slots') (notes ++ notes') where
  slots := by rw [List.map_append, h.slots, h'.slots]
  notes := by rw [List.map_append, h.notes, h'.notes]

/-- Behind a step that does not fail, its result is gone on with. -/
theorem andThen {α : Type} {x : Except TypeError α} {a : α} {next : α → List (Offer ν)}
    (h : Filled offers slots notes) (hx : x = .ok a) (hnext : Filled (next a) slots' notes') :
    Filled (andThen offers x next) (slots ++ slots') (notes ++ notes') := by
  subst hx
  exact h.append hnext

/-- As for steps before which nothing is offered. -/
theorem after {α : Type} {x : Except TypeError α} {a : α} {next : α → List (Offer ν)}
    (hx : x = .ok a) (hnext : Filled (next a) slots notes) :
    Filled (Typing.andThen [] x next) slots notes :=
  nil.andThen hx hnext

theorem type {slot : ν.type} {x : Except TypeError (Expr Typed)} {e : Expr Typed}
    (hx : x = .ok e) : Filled (offerType slot x) [.type slot] [.type e.type] :=
  .after hx nil.cons

end Filled

/-! ### Expressions -/

section Expressions

variable {Γ : StaticScope}

theorem eachOffers_filled {es : List (Expr ν)} {targets : List Ty} {es' : List (Expr Typed)}
    (hfilled : ∀ e ∈ es, ∀ e', infer Γ e.bare = .ok e' → Filled (e.offers Γ) e.notes e'.notes)
    (h : inferEach Γ (es.map Expr.bare) targets = .ok es') (hlength : es.length = targets.length) :
    Filled (Expr.eachOffers Γ es targets) (Expr.allNotes es) (Expr.allNotes es') := by
  induction es generalizing targets es' with
  | nil =>
      rw [List.map_nil, inferEach] at h
      cases h
      exact .nil
  | cons e es ih =>
      cases targets with
      | nil => cases hlength
      | cons target targets =>
          obtain ⟨e', rest', he, haccepts, hrest, rfl⟩ := inferEach_cons_ok h
          rw [List.forall_mem_cons] at hfilled
          refine (hfilled.1 e' he).andThen (a := ()) ?_ (ih hfilled.2 hrest (Nat.succ.inj hlength))
          rw [he]
          exact if_pos haccepts

/-- As for expressions with slots of one type, one slot for each of them. -/
theorem elementOffers_filled {es : List (Expr ν)} {σ : Ty} {es' : List (Expr Typed)}
    (hfilled : ∀ e ∈ es, ∀ e', infer Γ e.bare = .ok e' → Filled (e.offers Γ) e.notes e'.notes)
    (h : inferEach Γ (es.map Expr.bare) (List.replicate (es.map Expr.bare).length σ) = .ok es') :
    Filled (Expr.eachOffers Γ es (List.replicate es.length σ)) (Expr.allNotes es)
      (Expr.allNotes es') := by
  rw [List.length_map] at h
  exact eachOffers_filled hfilled h (List.length_replicate ..).symm

theorem isBinary_bare (e : Expr ν) : isBinary e.bare = isBinary e := by
  cases e <;> rfl

/-- An expression in a scope that a site describes. -/
theorem offers_filled {S : Site} (hS : S.Describes Γ) {e : Expr ν} {e' : Expr Typed}
    (h : infer Γ e.bare = .ok e') : Filled (e.offers Γ) e.notes e'.notes := by
  induction e using Expr.induct generalizing e' with
  | literal o τ value =>
      cases inferred_of_infer h
      exact .type h
  | group o τ inner ih =>
      -- The slot of the type is the last one that is filled, here and in the cases below.
      have htype : Filled _ [.type τ] [.type e'.type] := .type h
      cases inferred_of_infer h with
      | group hbinary hinner =>
          rw [Expr.offers, if_pos ((isBinary_bare inner).symm.trans hbinary)]
          exact (ih hinner).append htype
  | binary τ op left right ihleft ihright =>
      have htype : Filled _ [.type τ] [.type e'.type] := .type h
      cases inferred_of_infer h with
      | binary hleft hright _ =>
          rw [Expr.offers]
          exact (ihleft hleft).andThen hleft ((ihright hright).append htype)
  | var o τ x name =>
      have htype : Filled _ [.type τ] [.type e'.type] := .type h
      cases inferred_of_infer h with
      | var hx =>
          rw [Expr.offers]
          exact .after hx htype.cons
  | element o τ x name index ih =>
      have htype : Filled _ [.type τ] [.type e'.type] := .type h
      cases inferred_of_infer h with
      | element hx hlist hindex _ =>
          rw [Expr.offers]
          refine .after hx (.cons ?_)
          rw [hlist]
          exact (ih hindex).append htype
  | call o τ f name args ih =>
      have htype : Filled _ [.type τ] [.type e'.type] := .type h
      rw [Expr.bare, Expr.allBare_eq] at h
      cases inferred_of_infer h with
      | @call _ found _ _ args' hf hargs =>
          rw [List.length_map] at hf
          -- The function was found under the number of arguments, so none of them is passed over.
          have hlength : args.length = found.signature.params.length :=
            (hS.findFunction_key (resolveCallee_ok hf)).2.symm
          rw [Expr.offers]
          exact .after hf ((eachOffers_filled ih hargs hlength).append htype).cons
  | list o τ items ih =>
      have htype : Filled _ [.type τ] [.type e'.type] := .type h
      rw [Expr.bare, Expr.allBare_eq] at h
      cases items with
      | nil => cases inferred_of_infer h
      | cons first others =>
          rw [List.forall_mem_cons] at ih
          cases inferred_of_infer h with
          | list hfirst hothers =>
              rw [Expr.offers]
              have hrest := (elementOffers_filled (fun e he _ => ih.2 e he) hothers).append htype
              rw [Expr.notes, Expr.notes, Expr.allNotes, Expr.allNotes, List.append_assoc,
                List.append_assoc]
              exact (ih.1 hfirst).andThen hfirst hrest

theorem storedOffers_filled {S : Site} (hS : S.Describes Γ) {target : Ty} {value : Expr ν}
    {value' : Expr Typed} (h : inferFor Γ target value.bare = .ok value') :
    Filled (value.storedOffers Γ target) value.notes value'.notes := by
  unfold Expr.storedOffers
  split
  · next σ o τ items =>
      have htype : Filled _ [.type τ] [.type value'.type] := .type h
      rw [Expr.bare, Expr.allBare_eq] at h
      cases inferred_of_inferFor h with
      | list _ hitems =>
          exact (elementOffers_filled (fun _ _ _ => offers_filled hS) hitems).append htype
      | other hnot => exact absurd rfl (hnot _ _ _ rfl)
  · next hnot =>
      have hstored := inferred_of_inferFor h
      -- It is no list literal without its notes either.
      generalize hbare : value.bare = written at hstored
      cases hstored with
      | list =>
          cases value with
          | list => exact (hnot _ _ _ _ rfl rfl).elim
          | _ => cases hbare
      | other _ hvalue _ => exact offers_filled hS (hbare ▸ hvalue)

theorem initialOffers_filled {S : Site} (hS : S.Describes Γ) {offset : Nat} {name : String}
    {declared : Option Ty} {value : Option (Expr ν)} {type : Ty} {value' : Option (Expr Typed)}
    (h : inferInitial Γ offset name declared (value.map Expr.bare) = .ok (type, value')) :
    Filled (Expr.initialOffers Γ declared value) (Expr.someNotes value)
      (Expr.someNotes value') := by
  have hinitial := inferred_of_inferInitial h
  cases value with
  | none =>
      cases hinitial
      exact .nil
  | some value =>
      rw [Option.map_some] at hinitial
      cases hinitial with
      | stored hvalue => exact storedOffers_filled hS hvalue
      | inferred hvalue => exact offers_filled hS hvalue

theorem receiverOffers_filled {S : Site} (hS : S.Describes Γ) {receiver : Expr ν}
    {receiver' : Expr Typed} (h : inferReceiver Γ receiver.bare = .ok receiver') :
    Filled (receiver.receiverOffers Γ) receiver.notes receiver'.notes := by
  have hoffers := offers_filled hS (inferReceiver_ok h).1
  cases receiver with
  | var | element => exact hoffers
  | _ => cases h

end Expressions

/-! ### Statements -/

section Statements

variable {result : Ty} {S : Site} {env env' : Env}

theorem blockOffers_filled {block : List (Stmt ν)} {block' : List (Stmt Typed)}
    (hfilled : ∀ s ∈ block, ∀ {S : Site} {env : Env} {s' env'}, S.Describes env.scope →
      checkStmt result env s.bare = .ok (s', env') →
      Filled (s.offers result env) s.notes s'.notes)
    (hS : S.Describes env.scope)
    (h : checkBlock result env (block.map Stmt.bare) = .ok (block', env')) :
    Filled (Stmt.blockOffers result env block) (Stmt.blockNotes block)
      (Stmt.blockNotes block') := by
  induction block generalizing S env block' with
  | nil =>
      rw [List.map_nil, checkBlock] at h
      cases h
      exact .nil
  | cons s block ih =>
      obtain ⟨s', env₁, rest', hs, hrest, rfl⟩ := checkBlock_cons_ok h
      rw [List.forall_mem_cons] at hfilled
      have hsite := (checkStmt_noted hS hs).site
      rw [Stmt.blockOffers]
      exact (hfilled.1 hS hs).andThen hs (ih hfilled.2 hsite hrest)

theorem casesOffers_filled {subject : Ty} {cases : List (Case ν)} {cases' : List (Case Typed)}
    (hfilled : ∀ c ∈ cases, ∀ s ∈ c.body, ∀ {S : Site} {env : Env} {s' env'},
      S.Describes env.scope → checkStmt result env s.bare = .ok (s', env') →
      Filled (s.offers result env) s.notes s'.notes)
    (hS : S.Describes env.scope)
    (h : checkCases result subject env (cases.map Case.bare) = .ok (cases', env')) :
    Filled (Stmt.casesOffers result subject env cases) (Stmt.casesNotes cases)
      (Stmt.casesNotes cases') := by
  induction cases generalizing env cases' with
  | nil =>
      rw [List.map_nil, checkCases] at h
      cases h
      exact .nil
  | cons c cases ih =>
      obtain ⟨o, value, body⟩ := c
      rw [List.map_cons, Case.bare] at h
      obtain ⟨value', body', inner, rest', hvalue, hbody, hrest, rfl⟩ := checkCases_cons_ok h
      rw [List.forall_mem_cons] at hfilled
      have hS' : S.Describes (env.leave inner).scope := hS
      have htail := ih hfilled.2 hS' hrest
      have hblock := blockOffers_filled hfilled.1 hS.enter (Stmt.blockBare_eq body ▸ hbody)
      cases value with
      | some value =>
          rw [Stmt.casesOffers, Stmt.casesNotes, Stmt.casesNotes]
          rw [Option.map_some] at hvalue
          cases hvalue with
          | @some _ value' hinfer haccepts =>
              refine (offers_filled hS hinfer).andThen (a := ()) ?_ (hblock.andThen hbody htail)
              rw [hinfer]
              exact if_pos haccepts
      | none =>
          rw [Stmt.casesOffers, Stmt.casesNotes, Stmt.casesNotes]
          cases hvalue with
          | none hlast =>
              refine Filled.nil.andThen (a := ()) ?_ (hblock.andThen hbody htail)
              rw [List.isEmpty_map] at hlast
              exact if_pos hlast

theorem stmtOffers_filled (hS : S.Describes env.scope) {s : Stmt ν} {s' : Stmt Typed}
    (h : checkStmt result env s.bare = .ok (s', env')) :
    Filled (s.offers result env) s.notes s'.notes := by
  induction s using Stmt.induct generalizing S env s' env' with
  | perform e =>
      cases checked_of_checkStmt h with
      | perform he =>
          have hoffers := offers_filled hS he
          cases e with
          | call => exact hoffers
          | _ => cases h
  | declare o x name typeName value =>
      cases checked_of_checkStmt h with
      | declare hdeclared hinitial =>
          rw [Stmt.offers]
          have hvalue := initialOffers_filled hS hinitial
          exact .after hdeclared (hvalue.andThen hinitial Filled.nil.cons)
  | assign receiver value =>
      cases checked_of_checkStmt h with
      | assign hreceiver hvalue =>
          rw [Stmt.offers]
          exact (receiverOffers_filled hS hreceiver).andThen hreceiver
            (storedOffers_filled hS hvalue)
  | choose condition yes no ihyes ihno =>
      rw [Stmt.bare, Stmt.blockBare_eq, Stmt.blockBare_eq] at h
      cases checked_of_checkStmt h with
      | choose hcondition hyes hno =>
          have hcondition' := offers_filled hS (inferCondition_ok hcondition).1
          have hyes' := blockOffers_filled (fun s hs _ _ _ _ hS h => ihyes s hs hS h) hS.enter hyes
          have hno' := blockOffers_filled (fun s hs _ _ _ _ hS h => ihno s hs hS h) hS.enter hno
          rw [Stmt.offers, Stmt.blockBare_eq]
          exact hcondition'.andThen hcondition (hyes'.andThen hyes hno')
  | switch subject cases ih =>
      rw [Stmt.bare, Case.allBare_eq] at h
      cases checked_of_checkStmt h with
      | switch hsubject hcases =>
          rw [Stmt.offers]
          exact (offers_filled hS hsubject).andThen hsubject
            (casesOffers_filled (fun c hc s hs _ _ _ _ hS h => ih c hc s hs hS h) hS hcases)
  | loop condition body ih =>
      rw [Stmt.bare, Stmt.blockBare_eq] at h
      cases checked_of_checkStmt h with
      | loop hcondition hbody =>
          rw [Stmt.offers]
          exact (offers_filled hS (inferCondition_ok hcondition).1).andThen hcondition
            (blockOffers_filled (fun s hs _ _ _ _ hS h => ih s hs hS h) hS.enter hbody)
  | giveBack value =>
      cases checked_of_checkStmt h with
      | giveBack hvalue _ =>
          rw [Stmt.offers]
          exact offers_filled hS hvalue

end Statements

/-! ### Items -/

theorem itemOffers_filled {α β γ : Type} {offers : Env → α → List (Offer ν)}
    {check : Env → β → Except TypeError (γ × Env)} (bare : α → β) {slots : α → List (Note ν)}
    {notes : γ → List (Note Typed)} (after : Site → γ → Site)
    (hfilled : ∀ {S : Site} {env : Env} {a c env'}, S.Describes env.scope →
      check env (bare a) = .ok (c, env') → Filled (offers env a) (slots a) (notes c))
    (hafter : ∀ {S : Site} {env : Env} {a c env'}, S.Describes env.scope →
      check env a = .ok (c, env') → (after S c).Describes env'.scope)
    {S : Site} {env env' : Env} {items : List α} {items' : List γ} (hS : S.Describes env.scope)
    (h : checkEach check env (items.map bare) = .ok (items', env')) :
    Filled (itemOffers offers (fun env a => check env (bare a)) env items) (items.flatMap slots)
      (items'.flatMap notes) := by
  induction items generalizing S env items' with
  | nil =>
      rw [List.map_nil, checkEach] at h
      cases h
      exact .nil
  | cons a items ih =>
      obtain ⟨c, env₁, items₁, ha, hitems, rfl⟩ := checkEach_cons_ok h
      exact (hfilled hS ha).andThen ha (ih (hafter hS ha) hitems)

theorem globalOffers_filled {S : Site} {env env' : Env} {g : Global ν} {g' : Global Typed}
    (hS : S.Describes env.scope) (h : checkGlobal env g.bare = .ok (g', env')) :
    Filled (g.offers env) g.notes g'.notes := by
  obtain ⟨written, type, value', hwritten, hinitial, rfl, rfl⟩ := checkGlobal_ok h
  exact .after hwritten ((initialOffers_filled hS hinitial).andThen h Filled.nil.cons)

theorem functionOffers_filled {S : Site} {env env' : Env} {f : Function ν} {f' : Function Typed}
    (hS : S.Describes env.scope) (h : checkFunction env f.bare = .ok (f', env')) :
    Filled (f.offers env) f.notes f'.notes := by
  obtain ⟨types, written, body', inner, htypes, hwritten, hbody, rfl, rfl⟩ := checkFunction_ok h
  have hdefined : (S.define (env.define f.name ⟨types, written.getD .nil⟩).1).Describes
      (env.define f.name ⟨types, written.getD .nil⟩).2.scope := hS.define _
  have hentered : (S.define (env.define f.name ⟨types, written.getD .nil⟩).1).enter.Describes
      (env.define f.name ⟨types, written.getD .nil⟩).2.enter.scope := hdefined.enter
  obtain ⟨hscope, -⟩ := declareParams_noted f.params types hentered
  have hblock := blockOffers_filled (fun _ _ _ _ _ _ hS h => stmtOffers_filled hS h) hscope hbody
  exact .after htypes (.after hwritten hblock.cons)

end Typing

/-! ## §4 Programs -/

namespace Program

/-- When a program is accepted, its slots have been offered the notes of the checked program: slot
by slot, each of them once. -/
theorem offers_filled {s : Program ν} {q : Program Typed} (h : s.bare.check = .ok q) :
    Filled s.offers s.notes q.notes := by
  obtain ⟨env, env', main, hglobals, hfunctions, -, -⟩ := check_ok h
  have hsite := (checkEach_noted checkGlobal_noted Site.Describes.initial hglobals).site
  have hglobals' := itemOffers_filled Global.bare (fun S (g : Global Typed) => S.declare g.binding)
    globalOffers_filled (fun hS h => (checkGlobal_noted hS h).site)
    Site.Describes.initial hglobals
  have hfunctions' := itemOffers_filled Function.bare
    (fun S (f : Function Typed) => S.define f.callee)
    functionOffers_filled (fun hS h => (checkFunction_noted hS h).site) hsite hfunctions
  exact hglobals'.andThen hglobals hfunctions'

/-- **Complete and consistent notes.** What a program with its notes has to be. -/
structure Annotates (p : Program Bare) (q : Program Typed) : Prop where
  /-- Every node has its notes: without them the tree is the one that was checked. -/
  complete : q.bare = p
  /-- Every declaration has a variable or function of its own, which no other declaration has and
  which is none of the built-in functions. -/
  own : ((Builtin.all.map fun b => (Builtin.callee b).id) ++ q.numbers).Nodup
  /-- Names stand for what lexical scoping picks, and types follow from the notes on the parts. -/
  annotated : q.Annotated
  /-- Whatever the slots of the tree are, they are offered the notes, slot by slot. -/
  filled : ∀ {ν : Notes} (s : Program ν), s.bare = p →
    s.offers.map Offer.slot = s.notes ∧ s.offers.map Offer.note = q.notes
  /-- No slot is offered two different notes. -/
  once : ∀ {ν : Notes} (s : Program ν), s.bare = p → s.notes.Nodup →
    ∀ a ∈ s.offers, ∀ b ∈ s.offers, a.slot = b.slot → a.note = b.note

/-- **Checking annotates.** A program that is accepted gets complete and consistent notes. -/
theorem check_annotates {p : Program Bare} {q : Program Typed} (h : p.check = .ok q) :
    p.Annotates q := by
  obtain ⟨hbare, hannotated, -⟩ := check_noted h
  have hfilled : ∀ {ν : Notes} (s : Program ν), s.bare = p → Filled s.offers s.notes q.notes :=
    fun s hs => offers_filled (hs ▸ h)
  refine ⟨hbare, numbers_nodup h, hannotated, ?filled, ?once⟩
  case filled =>
    intro ν s hs
    exact ⟨(hfilled s hs).slots, (hfilled s hs).notes⟩
  case once =>
    -- Offers to different slots are different, for there are as many offers as slots.
    intro ν s hs hnodup a ha b hb hslot
    rw [← (hfilled s hs).slots] at hnodup
    exact congrArg Offer.note (List.inj_on_of_nodup_map hnodup ha hb hslot)

/-- A list of anything, and a local variable that hides another one inside a block. -/
def blockwise : Program Bare :=
  ⟨[⟨0, (), "items", some "Any", true, true,
      some (.list 0 () [.literal 0 () (.integer 1), .literal 0 () (.string "one")])⟩],
    [⟨0, (), "main", [], some "Integer",
      [.declare 0 () "x" none (some (.literal 0 () (.integer 2))),
        .choose (.binary () .less (.var 0 () () "x") (.literal 0 () (.integer 3)))
          [.declare 0 () "x" none (some (.element 0 () () "items" (.var 0 () () "x"))),
            .perform (.call 0 () () "print" [.var 0 () () "x"])]
          [],
        .giveBack (.var 0 () () "x")]⟩]⟩

theorem blockwise_annotated : ∃ q, blockwise.check = .ok q ∧ blockwise.Annotates q ∧
    q.numbers = [3, 4, 5, 6] ∧
    q.globals.map (fun g => g.value.map Expr.type) = [some (.list .any)] := by
  have hchecked : ∃ q, blockwise.check = .ok q ∧ q.numbers = [3, 4, 5, 6] ∧
      q.globals.map (fun g => g.value.map Expr.type) = [some (.list .any)] :=
    ⟨_, rfl, by decide +kernel, by decide +kernel⟩
  obtain ⟨q, hq, hnumbers, htypes⟩ := hchecked
  exact ⟨q, hq, check_annotates hq, hnumbers, htypes⟩

end Program

end DynImp
