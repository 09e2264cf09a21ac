import DynImp.Proofs.Grammar.Leads
import DynImp.Proofs.Grammar.Rereading
import DynImp.Proofs.Grammar.Slices

/-!
# Displayed trees are read in one way

The S-expression of a tree tells the tree, and where it ends in a longer text.

* **Layer A: the same tree.** `Expr.SameTree` is what can be told: all but the offsets, and of a
  number no more than its text.
* **Layer B: trees are made out from the front.** The lead tells the kind of the tree, and its parts
  follow by induction, each up to where it ends.
* **Layer C: texts.** The trees that are read from a text have names in the places of names, which
  is all that the display depends on.
-/

namespace DynImp

open Display

/-! ## §1 The same tree -/

namespace Expr

variable {ν : Notes}

/-- **The same tree**, apart from offsets and notes, and from how a number is represented that is
displayed alike. -/
inductive SameTree : Expr ν → Expr ν → Prop where
  | literal {o o' τ τ' v v'} : v.Alike v' → SameTree (.literal o τ v) (.literal o' τ' v')
  | group {o o' τ τ' inner inner'} : SameTree inner inner' →
      SameTree (.group o τ inner) (.group o' τ' inner')
  | binary {τ τ' op left left' right right'} : SameTree left left' → SameTree right right' →
      SameTree (.binary τ op left right) (.binary τ' op left' right')
  | var {o o' τ τ' x x' name} : SameTree (.var o τ x name) (.var o' τ' x' name)
  | element {o o' τ τ' x x' name index index'} : SameTree index index' →
      SameTree (.element o τ x name index) (.element o' τ' x' name index')
  | call {o o' τ τ' f f' name args args'} : List.Forall₂ SameTree args args' →
      SameTree (.call o τ f name args) (.call o' τ' f' name args')
  | list {o o' τ τ' items items'} : List.Forall₂ SameTree items items' →
      SameTree (.list o τ items) (.list o' τ' items')

theorem displayArgs_eq {args args' : List (Expr ν)}
    (hargs : ∀ arg ∈ args, ∀ {arg'}, arg.SameTree arg' → arg.display = arg'.display)
    (h : List.Forall₂ SameTree args args') : displayArgs args = displayArgs args' := by
  induction h with
  | nil => rfl
  | cons harg _ ih =>
      rw [List.forall_mem_cons] at hargs
      rw [displayArgs, displayArgs, hargs.1 harg, ih hargs.2]

theorem SameTree.display_eq {e e' : Expr ν} (h : e.SameTree e') : e.display = e'.display := by
  induction e using Expr.induct generalizing e' with
  | literal =>
      cases h with
      | literal halike => exact halike.quoted_eq
  | group _ _ _ ih =>
      cases h with
      | group hinner => rw [display, display, ih hinner]
  | binary _ _ _ _ ihl ihr =>
      cases h with
      | binary hleft hright => rw [display, display, ihl hleft, ihr hright]
  | var =>
      cases h with
      | var => rfl
  | element _ _ _ _ _ ih =>
      cases h with
      | element hindex => rw [display, display, ih hindex]
  | call _ _ _ _ _ ih =>
      cases h with
      | call hargs => rw [display, display, displayArgs_eq ih hargs]
  | list _ _ _ ih =>
      cases h with
      | list hitems =>
          cases hitems with
          | nil => rfl
          | cons hitem hothers =>
              rw [List.forall_mem_cons] at ih
              rw [display, display, displayItems, displayItems, ih.1 hitem,
                displayArgs_eq ih.2 hothers]

/-! ## §2 Trees are made out from the front -/

/-- **Legible trees.** All nodes are named. -/
def Legible (e : Expr ν) : Prop := ∀ part ∈ e.parts, part.Named

theorem Legible.named {e : Expr ν} (h : e.Legible) : e.Named :=
  h e (by rw [parts_eq]; exact List.mem_cons_self)

theorem Legible.inner {e d : Expr ν} (h : e.Legible) (hd : d ∈ e.inner) : d.Legible :=
  fun part hpart => h part (parts_subset hd hpart)

/-- **Made out from the front.** Where the tree is displayed, no other one is, nor does it end
anywhere else. -/
def MadeOut (e : Expr ν) : Prop :=
  ∀ ⦃e' : Expr ν⦄ ⦃rest rest' : List Char⦄, e'.Legible → Ends rest → Ends rest' →
    e.display.toList ++ rest = e'.display.toList ++ rest' → e.SameTree e' ∧ rest = rest'

/-- A part is made out up to the mark that closes the whole. -/
theorem MadeOut.closed {e e' : Expr ν} {closing : Char} {rest rest' : List Char} (h : e.MadeOut)
    (he' : e'.Legible) (hclosing : closing = ')' ∨ closing = ']')
    (heq : e.display.toList ++ closing :: rest = e'.display.toList ++ closing :: rest') :
    e.SameTree e' ∧ rest = rest' := by
  obtain ⟨hsame, htail⟩ := h he' (ends_cons (.inr hclosing) rest)
    (ends_cons (.inr hclosing) rest') heq
  exact ⟨hsame, (List.cons.inj htail).2⟩

theorem displayArgs_cons (arg : Expr ν) (args : List (Expr ν)) :
    displayArgs (arg :: args) = " " ++ displayItems (arg :: args) := by
  rw [displayArgs, displayItems, String.append_assoc]

theorem ends_displayArgs (args : List (Expr ν)) {closing : Char}
    (hclosing : closing = ')' ∨ closing = ']') (rest : List Char) :
    Ends ((displayArgs args).toList ++ closing :: rest) := by
  cases args with
  | nil => exact ends_cons (.inr hclosing) rest
  | cons arg args =>
      rw [displayArgs_cons, String.toList_append]
      exact ends_cons (.inl rfl) _

theorem displayArgs_append_inj {args args' : List (Expr ν)} {closing : Char}
    {rest rest' : List Char} (hargs : ∀ arg ∈ args, arg.MadeOut)
    (hlegible : ∀ arg ∈ args', arg.Legible) (hclosing : closing = ')' ∨ closing = ']')
    (h : (displayArgs args).toList ++ closing :: rest =
      (displayArgs args').toList ++ closing :: rest') :
    List.Forall₂ SameTree args args' ∧ rest = rest' := by
  -- An argument begins with a space, and the end of the arguments does not.
  have hnil : ∀ (arg : Expr ν) args rest rest',
      closing :: rest ≠ (displayArgs (arg :: args)).toList ++ closing :: rest' := by
    intro arg args rest rest' heq
    rw [displayArgs_cons, String.toList_append, List.append_assoc] at heq
    obtain rfl | rfl := hclosing <;> exact absurd (List.cons.inj heq).1 (by decide)
  induction args generalizing args' with
  | nil =>
      cases args' with
      | nil => exact ⟨.nil, (List.cons.inj h).2⟩
      | cons arg' args' => exact absurd h (hnil arg' args' rest rest')
  | cons arg args ih =>
      cases args' with
      | nil => exact absurd h.symm (hnil arg args rest' rest)
      | cons arg' args' =>
          rw [List.forall_mem_cons] at hargs hlegible
          simp only [displayArgs, String.toList_append, List.append_assoc] at h
          obtain ⟨harg, hothers⟩ := hargs.1 hlegible.1 (ends_displayArgs args hclosing rest)
            (ends_displayArgs args' hclosing rest') (List.append_cancel_left h)
          obtain ⟨hall, hrest⟩ := ih hargs.2 hlegible.2 hothers
          exact ⟨.cons harg hall, hrest⟩

theorem displayItems_append_inj {items items' : List (Expr ν)} {rest rest' : List Char}
    (hne : items ≠ []) (hne' : items' ≠ []) (hitems : ∀ item ∈ items, item.MadeOut)
    (hlegible : ∀ item ∈ items', item.Legible)
    (h : (displayItems items).toList ++ ']' :: rest = (displayItems items').toList ++ ']' :: rest') :
    List.Forall₂ SameTree items items' ∧ rest = rest' := by
  obtain ⟨item, others, rfl⟩ := List.exists_cons_of_ne_nil hne
  obtain ⟨item', others', rfl⟩ := List.exists_cons_of_ne_nil hne'
  refine displayArgs_append_inj hitems hlegible (.inr rfl) ?_
  rw [displayArgs_cons, displayArgs_cons, String.toList_append, String.toList_append]
  exact congrArg (' ' :: ·) h

/-- The lead can be seen, so it is enough to look at trees with the same one. -/
theorem Legible.madeOut_of_lead {e : Expr ν} (he : e.Legible)
    (h : ∀ e' rest rest', e'.Legible → e.lead = e'.lead →
      e.display.toList ++ rest = e'.display.toList ++ rest' → e.SameTree e' ∧ rest = rest') :
    e.MadeOut := by
  intro e' rest rest' he' hrest hrest' heq
  refine h e' rest rest' he' ?_ heq
  rw [← leadOf_display he.named hrest, heq, leadOf_display he'.named hrest']

/-- **Legible trees are made out from the front.** -/
theorem Legible.madeOut {e : Expr ν} (he : e.Legible) : e.MadeOut := by
  have hspace : ∀ rest, Ends (' ' :: rest) := ends_cons (.inl rfl)
  -- By induction on the tree.  In the whole, each part is followed by a space or by what closes the
  -- whole, so it ends there in both texts.
  induction e using Expr.induct with
  | literal o τ v =>
      refine he.madeOut_of_lead fun e' rest rest' he' hlead h => ?_
      cases e' with
      | literal =>
          obtain ⟨halike, htail⟩ := quoted_append_inj hlead h
          exact ⟨.literal halike, htail⟩
      | _ => cases hlead
  | group o τ inner ih =>
      refine he.madeOut_of_lead fun e' rest rest' he' hlead h => ?_
      cases e' with
      | group =>
          simp only [display, String.toList_append, List.append_assoc] at h
          obtain ⟨hinner, htail⟩ := (ih (he.inner List.mem_cons_self)).closed
            (he'.inner List.mem_cons_self) (.inl rfl) (List.append_cancel_left h)
          exact ⟨.group hinner, htail⟩
      | binary => exact absurd (Lead.form.inj hlead) (symbol_ne_form _ (.inl rfl)).symm
      | _ => cases hlead
  | binary τ op left right ihl ihr =>
      refine he.madeOut_of_lead fun e' rest rest' he' hlead h => ?_
      cases e' with
      | binary =>
          obtain rfl := BinaryOp.symbol_inj (String.toList_inj.mp (Lead.form.inj hlead))
          simp only [display, String.toList_append, List.append_assoc] at h
          obtain ⟨hleft, htail⟩ := ihl (he.inner List.mem_cons_self)
            (he'.inner List.mem_cons_self) (hspace _) (hspace _)
            (List.append_cancel_left (List.append_cancel_left (List.append_cancel_left h)))
          obtain ⟨hright, htail⟩ := (ihr (he.inner (.tail _ List.mem_cons_self))).closed
            (he'.inner (.tail _ List.mem_cons_self)) (.inl rfl) (List.cons.inj htail).2
          exact ⟨.binary hleft hright, htail⟩
      | group => exact absurd (Lead.form.inj hlead) (symbol_ne_form _ (.inl rfl))
      | call => exact absurd (Lead.form.inj hlead) (symbol_ne_form _ (.inr rfl))
      | _ => cases hlead
  | var o τ x name =>
      refine he.madeOut_of_lead fun e' rest rest' he' hlead h => ?_
      cases e' with
      | var =>
          obtain rfl := String.toList_inj.mp (Lead.name.inj hlead)
          exact ⟨.var, List.append_cancel_left h⟩
      | _ => cases hlead
  | element o τ x name index ih =>
      refine he.madeOut_of_lead fun e' rest rest' he' hlead h => ?_
      cases e' with
      | element =>
          obtain rfl := String.toList_inj.mp (Lead.element.inj hlead)
          simp only [display, String.toList_append, List.append_assoc] at h
          obtain ⟨hindex, htail⟩ := (ih (he.inner List.mem_cons_self)).closed
            (he'.inner List.mem_cons_self) (.inr rfl)
            (List.append_cancel_left (List.append_cancel_left h))
          exact ⟨.element hindex, htail⟩
      | _ => cases hlead
  | call o τ f name args ih =>
      refine he.madeOut_of_lead fun e' rest rest' he' hlead h => ?_
      cases e' with
      | call _ _ _ _ args' =>
          simp only [display, String.toList_append, List.append_assoc] at h
          -- The word in front of a call is not its name, which is made out on its own.
          obtain ⟨rfl, hall⟩ := name_append_inj he.named.1 he'.named.1
            (ends_displayArgs args (.inl rfl) rest) (ends_displayArgs args' (.inl rfl) rest')
            (List.append_cancel_left h)
          obtain ⟨hargs, htail⟩ := displayArgs_append_inj
            (fun arg harg => ih arg harg (he.inner harg)) (fun arg harg => he'.inner harg)
            (.inl rfl) hall
          exact ⟨.call hargs, htail⟩
      | binary => exact absurd (Lead.form.inj hlead) (symbol_ne_form _ (.inr rfl)).symm
      | _ => cases hlead
  | list o τ items ih =>
      refine he.madeOut_of_lead fun e' rest rest' he' hlead h => ?_
      cases e' with
      | list =>
          simp only [display, String.toList_append, List.append_assoc] at h
          obtain ⟨hitems, htail⟩ := displayItems_append_inj he.named he'.named
            (fun item hitem => ih item hitem (he.inner hitem)) (fun item hitem => he'.inner hitem)
            (List.append_cancel_left h)
          exact ⟨.list hitems, htail⟩
      | _ => cases hlead

theorem Legible.display_eq_iff {e e' : Expr ν} (he : e.Legible) (he' : e'.Legible) :
    e.display = e'.display ↔ e.SameTree e' := by
  refine ⟨fun h => ?_, SameTree.display_eq⟩
  exact (he.madeOut he' ends_nil ends_nil (by rw [h])).1

/-! ## §3 Texts -/

open Grammar

theorem Spans.named {e : Expr Bare} {ts : List Token} (h : e.Spans ts)
    (hts : ∀ t ∈ ts, t.Spelled) : e.Named := by
  have hname : ∀ t ∈ ts, t.IsName → Identifier t.text ∧ Token.constant? t.text = none := by
    intro t ht h
    have hspelled := hts t ht
    rw [Token.Spelled, h.1] at hspelled
    exact ⟨hspelled, h.2⟩
  cases h with
  | literal | group | binary => trivial
  | var h | element h | callNone h | callSome h => exact hname _ List.mem_cons_self h
  | list _ hitems =>
      rintro rfl
      cases hitems

theorem Spans.legible {e : Expr Bare} {ts : List Token} (h : e.Spans ts)
    (hts : ∀ t ∈ ts, t.Spelled) : e.Legible := by
  intro part hpart
  obtain ⟨slice, hslice, hspans⟩ := h.slices part hpart
  exact hspans.named fun t ht => hts t (hslice.subset ht)

/-- **Read expressions.** The expression is a part of the one that is read somewhere in the text,
behind the tokens that were taken before, or of a program that is read there. -/
inductive ReadFrom (text : String) (e : Expr Bare) : Prop where
  | expression {passed ts whole rest} : Token.scan text = .ok (passed ++ ts) →
      ofTokens ts = .ok (whole, rest) → e ∈ whole.parts → ReadFrom text e
  | program {passed ts p} : Token.scan text = .ok (passed ++ ts) → Program.ofTokens ts = .ok p →
      e ∈ p.exprs → ReadFrom text e

theorem exists_spans {ts rest : List Token} {e : Expr Bare} (h : ofTokens ts = .ok (e, rest)) :
    ∃ taken, ts = taken ++ rest ∧ e.Spans taken := by
  have hread := Reader.Reads.expression (k := ts.length) (Nat.le_succ _) (Nat.le_succ _)
  rw [ofTokens] at h
  cases hresult : Grammar.expression (ts.length + 1) ts with
  | error r =>
      rw [hresult] at h
      cases h
  | ok result =>
      rw [hresult] at h
      cases h
      exact hread.ok hresult

theorem ReadFrom.legible {text : String} {e : Expr Bare} (h : e.ReadFrom text) : e.Legible := by
  cases h with
  | @expression passed ts whole rest hscan hread hpart =>
      have hts := (List.forall_mem_append.mp (Token.spelled_of_scan hscan)).2
      obtain ⟨taken, rfl, hspans⟩ := exists_spans hread
      obtain ⟨slice, hslice, he⟩ := hspans.slices e hpart
      exact he.legible fun t ht => hts t (List.mem_append_left _ (hslice.subset ht))
  | @program passed ts p hscan hread hpart =>
      have hts := (List.forall_mem_append.mp (Token.spelled_of_scan hscan)).2
      have hspans := Program.ofTokens_eq_ok_iff.mp hread
      obtain ⟨slice, hslice, he⟩ := hspans.expr_slices
        (fun t ht h => (hts t ht).writes_mark h (by decide)) e hpart
      exact he.legible fun t ht => hts t (hslice.subset ht)

/-- **Displayed trees are unambiguous.** -/
theorem display_unambiguous {text text' : String} {e e' : Expr Bare} (he : e.ReadFrom text)
    (he' : e'.ReadFrom text') : e.display = e'.display ↔ e.SameTree e' :=
  he.legible.display_eq_iff he'.legible

/-- Two calls with different zeros are displayed alike, but not a group and a call of `group`. -/
theorem call_unambiguous :
    ∃ call call' grouped called : Expr Bare,
      call.ReadFrom "f(a, 0.0)" ∧ call'.ReadFrom "f (a, 0)" ∧ grouped.ReadFrom "(a)" ∧
        called.ReadFrom "group(a)" ∧ call.SameTree call' ∧ ¬ grouped.SameTree called := by
  have hread : ∀ {text e} (ts), Token.scan text = .ok ts → ofTokens ts = .ok (e, []) →
      e.ReadFrom text :=
    fun ts hscan hparse => .expression (show _ = Except.ok ([] ++ ts) from hscan) hparse
      (by rw [parts_eq]; exact List.mem_cons_self)
  have hcall : ReadFrom "f(a, 0.0)"
      (.call 0 () () "f" [.var 2 () () "a", .literal 5 () (.decimal ⟨0, 1⟩)]) :=
    hread [⟨.identifier, "f", 0⟩, ⟨.operator, "(", 1⟩, ⟨.identifier, "a", 2⟩,
      ⟨.operator, ",", 3⟩, ⟨.decimal, "0.0", 5⟩, ⟨.operator, ")", 8⟩] (by decide +kernel) rfl
  have hcall' : ReadFrom "f (a, 0)"
      (.call 0 () () "f" [.var 3 () () "a", .literal 6 () (.integer 0)]) :=
    hread [⟨.identifier, "f", 0⟩, ⟨.operator, "(", 2⟩, ⟨.identifier, "a", 3⟩,
      ⟨.operator, ",", 4⟩, ⟨.integer, "0", 6⟩, ⟨.operator, ")", 7⟩] (by decide +kernel) rfl
  have hgrouped : ReadFrom "(a)" (.group 0 () (.var 1 () () "a")) :=
    hread [⟨.operator, "(", 0⟩, ⟨.identifier, "a", 1⟩, ⟨.operator, ")", 2⟩]
      (by decide +kernel) rfl
  have hcalled : ReadFrom "group(a)" (.call 0 () () "group" [.var 6 () () "a"]) :=
    hread [⟨.identifier, "group", 0⟩, ⟨.operator, "(", 5⟩, ⟨.identifier, "a", 6⟩,
      ⟨.operator, ")", 7⟩] (by decide +kernel) rfl
  refine ⟨_, _, _, _, hcall, hcall', hgrouped, hcalled, ?_, fun hsame => ?_⟩
  · exact (display_unambiguous hcall hcall').mp (by decide +kernel)
  · exact absurd ((display_unambiguous hgrouped hcalled).mpr hsame) (by decide +kernel)

end Expr

end DynImp
