import DynImp.Proofs.Grammar.Phrase
import DynImp.Proofs.Grammar.Trees
import DynImp.Proofs.Grammar.Unplaced

/-!
# Relocation

Tokens and trees with every offset sent through one function.  A tree without places is the
case in which all offsets are sent to 0.

* **Layer A: trees.** Relocating twice is relocating once, along the composition.
* **Layer B: phrases.** A tree that spans some tokens spans them after relocation too, for no
  phrase depends on where its tokens stand.
-/

namespace DynImp

variable {ν : Notes}

/-- Two maps that agree with one on every member. -/
theorem map_map_eq {α β γ : Type} {F : α → β} {G : β → γ} {H : α → γ} {as : List α}
    (h : ∀ a ∈ as, G (F a) = H a) : (as.map F).map G = as.map H := by
  rw [List.map_map]
  exact List.map_congr_left h

/-! ## §1 Expressions -/

mutual

/-- A relocated expression. -/
def Expr.relocated (f : Nat → Nat) : Expr ν → Expr ν
  | .literal o τ value => .literal (f o) τ value
  | .group o τ inner => .group (f o) τ (inner.relocated f)
  | .binary τ op left right => .binary τ op (left.relocated f) (right.relocated f)
  | .var o τ x name => .var (f o) τ x name
  | .element o τ x name index => .element (f o) τ x name (index.relocated f)
  | .call o τ callee name args => .call (f o) τ callee name (Expr.allRelocated f args)
  | .list o τ items => .list (f o) τ (Expr.allRelocated f items)

/-- Relocated expressions. -/
def Expr.allRelocated (f : Nat → Nat) : List (Expr ν) → List (Expr ν)
  | [] => []
  | e :: rest => e.relocated f :: Expr.allRelocated f rest

end

@[simp] theorem Expr.allRelocated_eq (f : Nat → Nat) (es : List (Expr ν)) :
    Expr.allRelocated f es = es.map (Expr.relocated f) := by
  induction es with
  | nil => rfl
  | cons e es ih => rw [Expr.allRelocated, ih, List.map_cons]

section Expressions

variable (f g : Nat → Nat)

@[simp] theorem Expr.offset_relocated (e : Expr ν) : (e.relocated f).offset = f e.offset := by
  induction e using Expr.induct with
  | binary _ _ _ _ ih => exact ih
  | _ => rfl

@[simp] theorem Expr.type_relocated (e : Expr ν) : (e.relocated f).type = e.type := by
  cases e <;> rfl

@[simp] theorem Expr.rank_relocated (e : Expr ν) : (e.relocated f).rank = e.rank := by
  cases e <;> rfl

theorem Expr.relocated_relocated (e : Expr ν) :
    (e.relocated f).relocated g = e.relocated (g ∘ f) := by
  induction e using Expr.induct with
  | literal | var => rfl
  | group _ _ _ ih | element _ _ _ _ _ ih => simp only [relocated, ih, Function.comp_apply]
  | binary _ _ _ _ ihl ihr => simp only [relocated, ihl, ihr]
  | call _ _ _ _ _ ih | list _ _ _ ih =>
      simp only [relocated, allRelocated_eq, map_map_eq ih, Function.comp_apply]

theorem Expr.unplaced_eq_relocated (e : Expr ν) : e.unplaced = e.relocated fun _ => 0 := by
  induction e using Expr.induct with
  | literal | var => rfl
  | group _ _ _ ih | element _ _ _ _ _ ih => rw [unplaced, relocated, ih]
  | binary _ _ _ _ ihl ihr => rw [unplaced, relocated, ihl, ihr]
  | call _ _ _ _ _ ih | list _ _ _ ih =>
      rw [unplaced, relocated, allUnplaced_eq, allRelocated_eq, List.map_congr_left ih]

theorem Expr.map_relocated_relocated (value : Option (Expr ν)) :
    (value.map (relocated f)).map (relocated g) = value.map (relocated (g ∘ f)) := by
  rw [Option.map_map]
  exact Option.map_congr fun e _ => e.relocated_relocated f g

end Expressions

/-! ## §2 Statements -/

mutual

/-- A relocated statement. -/
def Stmt.relocated (f : Nat → Nat) : Stmt ν → Stmt ν
  | .perform e => .perform (e.relocated f)
  | .declare o x name typeName value =>
    .declare (f o) x name typeName (value.map (Expr.relocated f))
  | .assign receiver value => .assign (receiver.relocated f) (value.relocated f)
  | .choose condition yes no =>
    .choose (condition.relocated f) (Stmt.blockRelocated f yes) (Stmt.blockRelocated f no)
  | .switch subject cases => .switch (subject.relocated f) (Case.allRelocated f cases)
  | .loop condition body => .loop (condition.relocated f) (Stmt.blockRelocated f body)
  | .giveBack value => .giveBack (value.relocated f)

/-- A relocated block. -/
def Stmt.blockRelocated (f : Nat → Nat) : List (Stmt ν) → List (Stmt ν)
  | [] => []
  | s :: rest => s.relocated f :: Stmt.blockRelocated f rest

/-- A relocated case. -/
def Case.relocated (f : Nat → Nat) : Case ν → Case ν
  | .mk o value body => .mk (f o) (value.map (Expr.relocated f)) (Stmt.blockRelocated f body)

/-- Relocated cases. -/
def Case.allRelocated (f : Nat → Nat) : List (Case ν) → List (Case ν)
  | [] => []
  | c :: rest => c.relocated f :: Case.allRelocated f rest

end

@[simp] theorem Stmt.blockRelocated_eq (f : Nat → Nat) (block : List (Stmt ν)) :
    Stmt.blockRelocated f block = block.map (Stmt.relocated f) := by
  induction block with
  | nil => rfl
  | cons s block ih => rw [Stmt.blockRelocated, ih, List.map_cons]

@[simp] theorem Case.allRelocated_eq (f : Nat → Nat) (cases : List (Case ν)) :
    Case.allRelocated f cases = cases.map (Case.relocated f) := by
  induction cases with
  | nil => rfl
  | cons c cases ih => rw [Case.allRelocated, ih, List.map_cons]

section Statements

variable (f g : Nat → Nat)

theorem Case.relocated_relocated {c : Case ν}
    (hbody : ∀ s ∈ c.body, (s.relocated f).relocated g = s.relocated (g ∘ f)) :
    (c.relocated f).relocated g = c.relocated (g ∘ f) := by
  obtain ⟨o, value, block⟩ := c
  rw [body] at hbody
  simp only [relocated, Stmt.blockRelocated_eq, Expr.map_relocated_relocated, map_map_eq hbody,
    Function.comp_apply]

theorem Stmt.relocated_relocated (s : Stmt ν) :
    (s.relocated f).relocated g = s.relocated (g ∘ f) := by
  induction s using Stmt.induct with
  | perform | assign | giveBack => simp only [relocated, Expr.relocated_relocated]
  | declare => simp only [relocated, Expr.map_relocated_relocated, Function.comp_apply]
  | choose _ _ _ ihyes ihno =>
      simp only [relocated, blockRelocated_eq, Expr.relocated_relocated, map_map_eq ihyes,
        map_map_eq ihno]
  | switch _ _ ih =>
      have hcases := map_map_eq fun c hc => Case.relocated_relocated f g (ih c hc)
      simp only [relocated, Case.allRelocated_eq, Expr.relocated_relocated, hcases]
  | loop _ _ ih =>
      simp only [relocated, blockRelocated_eq, Expr.relocated_relocated, map_map_eq ih]

theorem Expr.map_unplaced_eq_relocated (value : Option (Expr ν)) :
    value.map unplaced = value.map (relocated fun _ => 0) :=
  Option.map_congr fun e _ => e.unplaced_eq_relocated

theorem Case.unplaced_eq_relocated {c : Case ν}
    (hbody : ∀ s ∈ c.body, s.unplaced = s.relocated fun _ => 0) :
    c.unplaced = c.relocated fun _ => 0 := by
  obtain ⟨o, value, block⟩ := c
  rw [body] at hbody
  rw [unplaced, relocated, Stmt.blockUnplaced_eq, Stmt.blockRelocated_eq,
    Expr.map_unplaced_eq_relocated, List.map_congr_left hbody]

theorem Stmt.unplaced_eq_relocated (s : Stmt ν) : s.unplaced = s.relocated fun _ => 0 := by
  induction s using Stmt.induct with
  | perform | assign | giveBack => simp only [unplaced, relocated, Expr.unplaced_eq_relocated]
  | declare => simp only [unplaced, relocated, Expr.map_unplaced_eq_relocated]
  | choose _ _ _ ihyes ihno =>
      simp only [unplaced, relocated, blockUnplaced_eq, blockRelocated_eq,
        Expr.unplaced_eq_relocated, List.map_congr_left ihyes, List.map_congr_left ihno]
  | switch _ _ ih =>
      have hcases := List.map_congr_left fun c hc => Case.unplaced_eq_relocated (ih c hc)
      simp only [unplaced, relocated, Case.allUnplaced_eq, Case.allRelocated_eq,
        Expr.unplaced_eq_relocated, hcases]
  | loop _ _ ih =>
      simp only [unplaced, relocated, blockUnplaced_eq, blockRelocated_eq,
        Expr.unplaced_eq_relocated, List.map_congr_left ih]

end Statements

/-! ## §3 Programs -/

/-- A relocated global. -/
def Global.relocated (f : Nat → Nat) (x : Global ν) : Global ν :=
  { x with offset := f x.offset, value := x.value.map (Expr.relocated f) }

/-- A relocated function. -/
def Function.relocated (f : Nat → Nat) (x : Function ν) : Function ν :=
  { x with offset := f x.offset, body := x.body.map (Stmt.relocated f) }

/-- A relocated program. -/
def Program.relocated (f : Nat → Nat) (p : Program ν) : Program ν :=
  ⟨p.globals.map (Global.relocated f), p.functions.map (Function.relocated f)⟩

theorem Program.relocated_relocated (f g : Nat → Nat) (p : Program ν) :
    (p.relocated f).relocated g = p.relocated (g ∘ f) := by
  have hglobals : ∀ x ∈ p.globals, (x.relocated f).relocated g = x.relocated (g ∘ f) := by
    intro x _
    simp only [Global.relocated, Expr.map_relocated_relocated, Function.comp_apply]
  have hfunctions : ∀ x ∈ p.functions, (x.relocated f).relocated g = x.relocated (g ∘ f) := by
    intro x _
    have hbody := map_map_eq fun s (_ : s ∈ x.body) => s.relocated_relocated f g
    simp only [Function.relocated, hbody, Function.comp_apply]
  simp only [relocated, map_map_eq hglobals, map_map_eq hfunctions]

/-- **Trees without places** have all their offsets sent to 0. -/
theorem Program.unplaced_eq_relocated (p : Program ν) : p.unplaced = p.relocated fun _ => 0 := by
  have hglobals : ∀ x ∈ p.globals, x.unplaced = x.relocated fun _ => 0 := by
    intro x _
    rw [Global.unplaced, Global.relocated, Expr.map_unplaced_eq_relocated]
  have hfunctions : ∀ x ∈ p.functions, x.unplaced = x.relocated fun _ => 0 := by
    intro x _
    rw [Function.unplaced, Function.relocated,
      List.map_congr_left fun s _ => s.unplaced_eq_relocated]
  rw [unplaced, relocated, List.map_congr_left hglobals, List.map_congr_left hfunctions]

/-- Relocation leaves no trace without places. -/
theorem Program.unplaced_relocated (f : Nat → Nat) (p : Program ν) :
    (p.relocated f).unplaced = p.unplaced := by
  rw [unplaced_eq_relocated, relocated_relocated, unplaced_eq_relocated]
  rfl

/-! ## §4 Phrases -/

/-- A relocated token. -/
def Token.relocated (f : Nat → Nat) (t : Token) : Token := { t with offset := f t.offset }

namespace Token

variable {t : Token} (f : Nat → Nat)

theorem spells_relocated {word : String} (h : t.spells word) : (t.relocated f).spells word := h

theorem kind_relocated {kind : Kind} (h : t.kind = kind) : (t.relocated f).kind = kind := h

theorem literal?_relocated {v : Scalar} (h : t.literal? = some v) :
    (t.relocated f).literal? = some v := h

theorem IsName.relocated (h : t.IsName) : (t.relocated f).IsName := h

theorem Opens.relocated {mark : String} (h : t.Opens mark) : (t.relocated f).Opens mark := h

theorem IsOperator.relocated {op : BinaryOp} (h : t.IsOperator op) :
    (t.relocated f).IsOperator op := h

end Token

namespace Grammar

section Lists

variable {α β : Type} {P : α → List Token → Prop} {Q : β → List Token → Prop} {F : α → β}
  {f : Nat → Nat} {ts : List Token}

@[simp] theorem startsWith_relocated (word : String) (ts : List Token) :
    Reader.startsWith word (ts.map (Token.relocated f)) = Reader.startsWith word ts := by
  cases ts <;> rfl

@[simp] theorem startsWithAny_relocated (words : List String) (ts : List Token) :
    Reader.startsWithAny words (ts.map (Token.relocated f)) = Reader.startsWithAny words ts := by
  simp only [Reader.startsWithAny, startsWith_relocated]

theorem Many.relocated {opens : Token → Bool} {as : List α} (h : Many opens P as ts)
    (hopens : ∀ t, opens (t.relocated f) = opens t)
    (hP : ∀ a ∈ as, ∀ us, P a us → Q (F a) (us.map (Token.relocated f))) :
    Many opens Q (as.map F) (ts.map (Token.relocated f)) := by
  induction h with
  | nil => exact .nil
  | cons hopen ha _ ih =>
      rw [List.forall_mem_cons] at hP
      rw [List.map_append]
      exact .cons ((hopens _).trans hopen) (hP.1 _ ha) (ih hP.2)

theorem Joined.relocated {mark : String} {as : List α} (h : Joined mark P as ts)
    (hP : ∀ a ∈ as, ∀ us, P a us → Q (F a) (us.map (Token.relocated f))) :
    Joined mark Q (as.map F) (ts.map (Token.relocated f)) := by
  induction h with
  | one ha => exact .one (hP _ List.mem_cons_self _ ha)
  | more ha hmark _ ih =>
      rw [List.forall_mem_cons] at hP
      rw [List.map_append]
      exact .more (hP.1 _ ha) (Token.spells_relocated f hmark) (ih hP.2)

theorem Optional.relocated {a : Option α} (h : Optional P a ts)
    (hP : ∀ a us, P a us → Q (F a) (us.map (Token.relocated f))) :
    Optional Q (a.map F) (ts.map (Token.relocated f)) := by
  cases h with
  | none => exact .none
  | some ha => exact .some (hP _ _ ha)

theorem After.relocated {mark : String} {a : α} (h : After mark P a ts)
    (hP : ∀ a us, P a us → Q (F a) (us.map (Token.relocated f))) :
    After mark Q (F a) (ts.map (Token.relocated f)) := by
  cases h with
  | mk hmark ha => exact .mk (Token.spells_relocated f hmark) (hP _ _ ha)

theorem TypePhrase.relocated {type : Option String} (h : TypePhrase type ts) :
    TypePhrase type (ts.map (Token.relocated f)) := by
  have hname : ∀ name us, Name name us → Name (id name) (us.map (Token.relocated f)) := by
    rintro _ _ ⟨hkind⟩
    exact .mk (Token.kind_relocated f hkind)
  have hphrase := Optional.relocated h fun _ _ hafter => hafter.relocated hname
  rwa [Option.map_id] at hphrase

end Lists

end Grammar

open Grammar

theorem Expr.Spans.relocated {f : Nat → Nat} {e : Expr Bare} {ts : List Token} (h : e.Spans ts) :
    (e.relocated f).Spans (ts.map (Token.relocated f)) := by
  induction e using Expr.induct generalizing ts with
  | literal =>
      cases h with
      | literal hv => exact .literal (Token.literal?_relocated f hv)
  | group o τ inner ih =>
      cases h with
      | group hopening hinner hclosing =>
          rw [List.map_cons, List.map_append]
          exact .group (hopening.relocated f) (ih hinner) (Token.spells_relocated f hclosing)
  | binary τ op left right ihl ihr =>
      cases h with
      | binary hleft hop hright hrankl hrankr =>
          rw [List.map_append]
          rw [← rank_relocated f] at hrankl hrankr
          exact .binary (ihl hleft) (hop.relocated f) (ihr hright) hrankl hrankr
  | var =>
      cases h with
      | var hname => exact .var (hname.relocated f)
  | element o τ x name index ih =>
      cases h with
      | element hname hopening hindex hclosing =>
          rw [List.map_cons, List.map_cons, List.map_append]
          exact .element (hname.relocated f) (Token.spells_relocated f hopening) (ih hindex)
            (Token.spells_relocated f hclosing)
  | call o τ callee name args ih =>
      rw [Expr.relocated, allRelocated_eq]
      cases h with
      | callNone hname hopening hclosing =>
          exact .callNone (hname.relocated f) (Token.spells_relocated f hopening)
            (Token.spells_relocated f hclosing)
      | callSome hname hopening hstart hargs hclosing =>
          rw [List.map_cons, List.map_cons, List.map_append]
          rw [← startsWith_relocated (f := f)] at hstart
          exact .callSome (hname.relocated f) (Token.spells_relocated f hopening) hstart
            (hargs.relocated fun arg harg _ => ih arg harg) (Token.spells_relocated f hclosing)
  | list o τ items ih =>
      rw [Expr.relocated, allRelocated_eq]
      cases h with
      | list hopening hitems hclosing =>
          rw [List.map_cons, List.map_append]
          exact .list (hopening.relocated f) (hitems.relocated fun item hitem _ => ih item hitem)
            (Token.spells_relocated f hclosing)

namespace Grammar

open DynImp.Token (spells_relocated kind_relocated)

variable {f : Nat → Nat} {ts : List Token}

theorem InitialPhrase.relocated {value : Option (Expr Bare)} (h : InitialPhrase value ts) :
    InitialPhrase (value.map (Expr.relocated f)) (ts.map (Token.relocated f)) :=
  Optional.relocated h fun _ _ hafter => hafter.relocated fun _ _ hvalue => hvalue.relocated

theorem StmtSpans.relocated {s : Stmt Bare} (h : StmtSpans s ts) :
    StmtSpans (s.relocated f) (ts.map (Token.relocated f)) := by
  induction s using Stmt.induct generalizing ts with
  | perform e =>
      cases h with
      | perform hstart he hsemi =>
          rw [List.map_append]
          rw [← startsWithAny_relocated (f := f)] at hstart
          exact .perform hstart he.relocated (spells_relocated f hsemi)
  | declare o x name type value =>
      cases h with
      | declare hword hname htype hvalue hsemi =>
          simp only [List.map_cons, List.map_append]
          exact .declare (spells_relocated f hword) (kind_relocated f hname) htype.relocated
            hvalue.relocated (spells_relocated f hsemi)
  | assign receiver value =>
      cases h with
      | assign hstart hreceiver hequals hvalue hsemi =>
          simp only [List.map_cons, List.map_append]
          rw [← startsWithAny_relocated (f := f)] at hstart
          exact .assign hstart hreceiver.relocated (spells_relocated f hequals) hvalue.relocated
            (spells_relocated f hsemi)
  | choose condition yes no ihyes ihno =>
      cases h with
      | choose hword hcondition hdo hyes hno hend =>
          simp only [List.map_cons, List.map_append, Stmt.relocated, Stmt.blockRelocated_eq]
          refine .choose (spells_relocated f hword) hcondition.relocated (spells_relocated f hdo)
            (hyes.relocated (fun _ => rfl) fun s hs _ => ihyes s hs) ?_ (spells_relocated f hend)
          cases hno with
          | none => exact .none
          | some helse hblock =>
              exact .some (spells_relocated f helse)
                (hblock.relocated (fun _ => rfl) fun s hs _ => ihno s hs)
  | switch subject cases ih =>
      cases h with
      | switch hword hsubject hcases hdefault hbody hend =>
          rw [List.forall_mem_append, List.forall_mem_singleton] at ih
          simp only [List.map_cons, List.map_append, Stmt.relocated, Case.allRelocated_eq,
            Case.relocated, Stmt.blockRelocated_eq]
          refine .switch (spells_relocated f hword) hsubject.relocated
            (hcases.relocated (fun _ => rfl) ?_) (spells_relocated f hdefault)
            (hbody.relocated (fun _ => rfl) fun s hs _ => ih.2 s hs) (spells_relocated f hend)
          intro c hc us hus
          cases hus with
          | valued hword hvalue hcolon hblock =>
              simp only [List.map_cons, List.map_append, Case.relocated, Stmt.blockRelocated_eq]
              exact .valued (spells_relocated f hword) hvalue.relocated (spells_relocated f hcolon)
                (hblock.relocated (fun _ => rfl) fun s hs _ => ih.1 _ hc s hs)
  | loop condition body ih =>
      cases h with
      | loop hword hcondition hdo hbody hend =>
          simp only [List.map_cons, List.map_append, Stmt.relocated, Stmt.blockRelocated_eq]
          exact .loop (spells_relocated f hword) hcondition.relocated (spells_relocated f hdo)
            (hbody.relocated (fun _ => rfl) fun s hs _ => ih s hs) (spells_relocated f hend)
  | giveBack value =>
      cases h with
      | giveBack hword hvalue hsemi =>
          rw [List.map_cons, List.map_append]
          exact .giveBack (spells_relocated f hword) hvalue.relocated (spells_relocated f hsemi)

theorem GlobalSpans.relocated {x : Global Bare} (h : GlobalSpans x ts) :
    GlobalSpans (x.relocated f) (ts.map (Token.relocated f)) := by
  cases h with
  | var hword hname htype hvalue =>
      simp only [List.map_cons, List.map_append]
      exact .var (spells_relocated f hword) (kind_relocated f hname) htype.relocated
        hvalue.relocated
  | val hword hname htype hequals hvalue =>
      simp only [List.map_cons, List.map_append]
      exact .val (spells_relocated f hword) (kind_relocated f hname) htype.relocated
        (spells_relocated f hequals) hvalue.relocated
  | list hword hname htype hequals hopening hitems hclosing =>
      simp only [List.map_cons, List.map_append, Global.relocated, Option.map_some, Expr.relocated,
        Expr.allRelocated_eq]
      exact .list (spells_relocated f hword) (kind_relocated f hname) htype.relocated
        (spells_relocated f hequals) (spells_relocated f hopening)
        (hitems.relocated fun _ _ _ hitem => hitem.relocated) (spells_relocated f hclosing)

theorem ParametersSpan.relocated {params : List Parameter} (h : ParametersSpan params ts) :
    ParametersSpan params (ts.map (Token.relocated f)) := by
  have hparam : ∀ x us, ParameterSpans x us →
      ParameterSpans (id x) (us.map (Token.relocated f)) := by
    rintro _ _ ⟨hname, htype⟩
    exact .mk (kind_relocated f hname) htype.relocated
  cases h with
  | none hclosing => exact .none (spells_relocated f hclosing)
  | some hstart hparams hclosing =>
      have hrelocated := hparams.relocated fun x _ => hparam x
      rw [List.map_id] at hrelocated
      rw [List.map_append]
      rw [← startsWith_relocated (f := f)] at hstart
      exact .some hstart hrelocated (spells_relocated f hclosing)

theorem FunctionSpans.relocated {x : Function Bare} (h : FunctionSpans x ts) :
    FunctionSpans (x.relocated f) (ts.map (Token.relocated f)) := by
  cases h with
  | mk hword hname hopening hparams htype hdo hbody hend =>
      simp only [List.map_cons, List.map_append]
      exact .mk (spells_relocated f hword) (kind_relocated f hname) (spells_relocated f hopening)
        hparams.relocated htype.relocated (spells_relocated f hdo)
        (hbody.relocated (fun _ => rfl) fun _ _ _ hs => hs.relocated) (spells_relocated f hend)

/-- **Phrases do not depend on places.** -/
theorem ProgramSpans.relocated {p : Program Bare} (h : ProgramSpans p ts) :
    ProgramSpans (p.relocated f) (ts.map (Token.relocated f)) := by
  cases h with
  | mk hglobals hfunctions =>
      rw [List.map_append]
      refine .mk (hglobals.relocated (fun _ => rfl) fun x _ us hus => ?_)
        (hfunctions.relocated (fun _ => rfl) fun _ _ _ hx => hx.relocated)
      cases hus with
      | mk hx hsemi =>
          rw [List.map_append]
          exact .mk hx.relocated (spells_relocated f hsemi)

end Grammar

end DynImp
