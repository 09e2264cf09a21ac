import DynImp.Proofs.Scope.History

/-!
# Scopes tell the same as their history

A desk keeps, beside the scope, the entries that its names stand for.  After every script that
leaves the outermost scope open, a lookup at the desk finds what the history of the script
says, and the entries hold what was last written to them.

* **Layer A: ledgers**, the entries of all variables ever defined.
* **Layer B: desks** that are faithful to a history, step by step.
* **Layer C: blocks**, from the step that opens a frame to the one that closes it.
-/

namespace DynImp.Scope

variable {steps : List Step} {s : Step} {i : Nat}

/-! ## §1 Ledgers -/

/-- **Ledger.** The entries are those of the variable definitions, as they are after the history. -/
structure Ledger (steps : List Step) (entries : List VariableEntry) : Prop where
  count : entries.length = (places Step.definesVariable steps).length
  entry : ∀ id e, entries[id]? = some e → e.id = id ∧ ∃ i, VariableOf steps i e

namespace Ledger

variable {entries : List VariableEntry}

theorem get (h : Ledger steps entries) {id : Nat}
    (hi : (places Step.definesVariable steps)[id]? = some i) :
    ∃ e, entries[id]? = some e ∧ e.id = id ∧ VariableOf steps i e := by
  obtain ⟨hid, -⟩ := List.getElem?_eq_some_iff.mp hi
  rw [← h.count] at hid
  have hget := List.getElem?_eq_getElem hid
  obtain ⟨hnumber, j, hj⟩ := h.entry id _ hget
  refine ⟨_, hget, hnumber, ?_⟩
  -- The number of an entry tells the step it was made in.
  have hij := hj.number
  rw [hnumber, hi] at hij
  obtain rfl := Option.some.inj hij
  exact hj

/-- A step that neither makes an entry nor writes to one. -/
theorem later (h : Ledger steps entries) (hkind : s.definesVariable = false)
    (hwrite : ∀ name text, s ≠ .write name text) : Ledger (steps ++ [s]) entries where
  count := by rw [places_append_other hkind, h.count]
  entry id e he := by
    obtain ⟨hid, i, hi⟩ := h.entry id e he
    exact ⟨hid, i, hi.later fun name text hs => (hwrite name text hs).elim⟩

theorem define (h : Ledger steps entries) (name : String) (mutable : Bool) (text : String) :
    Ledger (steps ++ [.defineVariable name mutable text])
      (entries ++ [⟨entries.length, name, mutable, text⟩]) where
  count := by
    rw [places_append_one, List.length_append, List.length_append, h.count]
    rfl
  entry id e he := by
    rw [List.getElem?_append] at he
    split at he
    · obtain ⟨hid, i, hi⟩ := h.entry id e he
      exact ⟨hid, i, hi.later nofun⟩
    · next hge =>
        -- The entry is the new one.
        rw [List.getElem?_singleton] at he
        split at he
        · next hzero =>
            obtain rfl := Option.some.inj he
            refine ⟨by simp only; omega, steps.length, ?_⟩
            rw [h.count]
            exact .new steps name mutable text
        · cases he

theorem write (h : Ledger steps entries) {name : String} {id : Nat}
    (hid : (places Step.definesVariable steps)[id]? = some i)
    (hforce : InForce steps (.variable name) i) (text : String) :
    Ledger (steps ++ [.write name text]) (entries.modify id fun e => { e with text }) where
  count := by rw [List.length_modify, places_append_other rfl, h.count]
  entry id' e' he' := by
    rw [List.getElem?_modify] at he'
    obtain ⟨e, he, rfl⟩ := Option.map_eq_some_iff.mp he'
    obtain ⟨hnumber, j, hj⟩ := h.entry id' e he
    by_cases hsame : id = id'
    · subst hsame
      rw [if_pos rfl]
      refine ⟨hnumber, j, hj.write ?_ text⟩
      have hij := hj.number
      rw [hnumber, hid] at hij
      rwa [← Option.some.inj hij]
    · rw [if_neg hsame]
      refine ⟨hnumber, j, hj.later ?_⟩
      -- Only one definition is in force, and it is not the one of this entry.
      rintro _ _ ⟨⟩ hforce'
      obtain rfl := hforce'.unique hforce
      have hj' := hj.number
      rw [hnumber] at hj'
      exact hsame ((List.getElem?_inj (List.getElem?_eq_some_iff.mp hid).1
        (places_nodup _ steps).1).mp (hid.trans hj'.symm))

/-- A write through a name that stands for nothing. -/
theorem stray (h : Ledger steps entries) {name : String} (hname : Undefined steps (.variable name))
    (text : String) : Ledger (steps ++ [.write name text]) entries where
  count := by rw [places_append_other rfl, h.count]
  entry id e he := by
    obtain ⟨hid, i, hi⟩ := h.entry id e he
    refine ⟨hid, i, hi.later ?_⟩
    rintro _ _ ⟨⟩ hforce
    exact hname.not_inForce hforce

end Ledger

/-! ## §2 Desks -/

namespace Desk

variable {d d' : Desk}

/-- **After steps.** The desk that is left, unless a step closes the only frame. -/
def after? (d : Desk) : List Step → Option Desk
  | [] => some d
  | s :: rest => (d.step s).2.bind fun d => d.after? rest

theorem after?_append (d : Desk) (steps rest : List Step) :
    d.after? (steps ++ rest) = (d.after? steps).bind fun d => d.after? rest := by
  induction steps generalizing d with
  | nil => rfl
  | cons s steps ih =>
      rw [List.cons_append, after?, after?]
      cases (d.step s).2 with
      | none => rfl
      | some d' => exact ih d'

/-- What is answered later is answered at the desk that is left. -/
theorem run_append (h : d.after? steps = some d') (rest : List Step) :
    d.run (steps ++ rest) = d.run steps ++ d'.run rest := by
  induction steps generalizing d with
  | nil =>
      obtain rfl := Option.some.inj h
      rfl
  | cons s steps ih =>
      rw [after?] at h
      rw [List.cons_append, run, run]
      obtain ⟨answer, next, hstep⟩ : ∃ answer next, d.step s = (answer, next) := ⟨_, _, rfl⟩
      rw [hstep] at h ⊢
      cases next with
      | none => cases h
      | some d₁ => exact congrArg (answer :: ·) (ih h)

/-- A write changes the entry that the name stands for, and nothing else. -/
theorem step_write (d : Desk) (name text : String) :
    ∃ entries, (d.step (.write name text)).2 = some { d with entries } ∧
      (∀ id, d.scope.findVariable name = some id →
        entries = d.entries.modify id fun e => { e with text }) ∧
      (d.scope.findVariable name = none → entries = d.entries) := by
  cases hfind : d.scope.findVariable name with
  | some id =>
      refine ⟨_, by rw [step, lookupVariable, hfind], ?_, nofun⟩
      rintro _ ⟨⟩
      rfl
  | none => exact ⟨d.entries, by rw [step, lookupVariable, hfind], nofun, fun _ => rfl⟩

/-- **A desk that is faithful to a history.** -/
structure Faithful (steps : List Step) (d : Desk) : Prop where
  vars : variableTable.Reflects steps (d.scope.frames.map Frame.vars)
  funs : functionTable.Reflects steps (d.scope.frames.map Frame.funs)
  entries : Ledger steps d.entries
  functionCount : d.functionCount = (places Step.definesFunction steps).length

namespace Faithful

theorem start : Faithful [] empty where
  vars := .start _
  funs := .start _
  entries := ⟨rfl, nofun⟩
  functionCount := rfl

theorem findVariable (h : Faithful steps d) {name : String} {found : Option Nat}
    (hfind : d.scope.findVariable name = found) : variableTable.Resolves steps name found := by
  have hresolves := h.vars.find name
  rw [List.findSome?_map] at hresolves
  rwa [← hfind]

theorem findFunction (h : Faithful steps d) {name : String} {arity : Nat}
    {found : Option FunctionEntry} (hfind : d.scope.findFunction name arity = found) :
    functionTable.Resolves steps (name, arity) found := by
  have hresolves := h.funs.find (name, arity)
  rw [List.findSome?_map] at hresolves
  rwa [← hfind]

/-- A step that only looks something up. -/
theorem idle (h : Faithful steps d) (hkey : s.key? = none)
    (hopen : openScopes (steps ++ [s]) = openScopes steps) (hvar : s.definesVariable = false)
    (hfun : s.definesFunction = false) (hwrite : ∀ name text, s ≠ .write name text) :
    Faithful (steps ++ [s]) d where
  vars := h.vars.idle (by simp [hkey]) hopen
  funs := h.funs.idle (by simp [hkey]) hopen
  entries := h.entries.later hvar hwrite
  functionCount := by rw [places_append_other hfun, h.functionCount]

/-- **One step.** A desk stays faithful, and is left by every step that the history allows. -/
theorem step (h : Faithful steps d) (hopen : openScopes (steps ++ [s]) ≠ []) :
    ∃ d', (d.step s).2 = some d' ∧ Faithful (steps ++ [s]) d' := by
  have hscopes := openScopes_append_one steps s
  cases s with
  | push =>
      refine ⟨_, rfl, h.vars.push, h.funs.push, h.entries.later rfl nofun, ?_⟩
      rw [places_append_other rfl]
      exact h.functionCount
  | pop =>
      obtain ⟨⟨inner, outer⟩, entries, functionCount⟩ := d
      cases outer with
      | nil =>
          -- The only frame stands for the only scope.
          refine (hopen ?_).elim
          have hlength := h.vars.length_eq
          rw [hscopes, Step.reopen]
          refine List.eq_nil_of_length_eq_zero ?_
          rw [List.length_tail, hlength]
          rfl
      | cons frame frames =>
          refine ⟨_, rfl, h.vars.pop, h.funs.pop, h.entries.later rfl nofun, ?_⟩
          rw [places_append_other rfl]
          exact h.functionCount
  | defineVariable name mutable text =>
      refine ⟨_, rfl, ?_, h.funs.idle nofun hscopes, h.entries.define name mutable text, ?_⟩
      · refine h.vars.define (k := name) rfl hscopes ?_
        rw [h.entries.count]
        exact places_getElem?_self rfl
      · rw [places_append_other rfl]
        exact h.functionCount
  | defineFunction name arity text =>
      refine ⟨_, rfl, h.vars.idle nofun hscopes, ?_, h.entries.later rfl nofun, ?_⟩
      · refine h.funs.define (k := (name, arity)) rfl hscopes ?_
        rw [h.functionCount]
        exact FunctionOf.new steps name arity text
      · rw [places_append_one, List.length_append, ← h.functionCount]
        rfl
  | findVariable name =>
      refine ⟨d, ?_, h.idle rfl hscopes rfl rfl nofun⟩
      simp only [Desk.step]
      split <;> rfl
  | findFunction name arity =>
      refine ⟨d, ?_, h.idle rfl hscopes rfl rfl nofun⟩
      simp only [Desk.step]
      split <;> rfl
  | entry id => exact ⟨d, rfl, h.idle rfl hscopes rfl rfl nofun⟩
  | write name text =>
      obtain ⟨entries, hstep, hfound, hunknown⟩ := step_write d name text
      refine ⟨_, hstep, h.vars.idle nofun hscopes, h.funs.idle nofun hscopes, ?_, ?_⟩
      · cases hfind : d.scope.findVariable name with
        | some id =>
            cases h.findVariable hfind with
            | found inForce has =>
                rw [hfound id hfind]
                exact h.entries.write has inForce text
        | none =>
            cases h.findVariable hfind with
            | unknown undefined =>
                rw [hunknown hfind]
                exact h.entries.stray undefined text
      · rw [places_append_other rfl]
        exact h.functionCount

/-- **A whole history.** The empty desk gets through every legal history, and stays faithful. -/
theorem of_legal (h : Legal steps) : ∃ d, empty.after? steps = some d ∧ Faithful steps d := by
  induction steps using List.reverseRecOn with
  | nil => exact ⟨empty, rfl, .start⟩
  | append_singleton steps s ih =>
      obtain ⟨hlegal, hopen⟩ := legal_append_one.mp h
      obtain ⟨d, hafter, hd⟩ := ih hlegal
      obtain ⟨d', hstep, hd'⟩ := hd.step hopen
      refine ⟨d', ?_, hd'⟩
      rw [after?_append, hafter]
      simp [after?, hstep]

end Faithful

end Desk

/-! ## §3 Blocks -/

/-- **Balanced histories** close every scope that they open, and no other one. -/
inductive Balanced : List Step → Prop
  | nil : Balanced []
  | step {s : Step} {rest : List Step} (stays : s ≠ .push ∧ s ≠ .pop) (next : Balanced rest) :
      Balanced (s :: rest)
  | block {inner rest : List Step} (body : Balanced inner) (next : Balanced rest) :
      Balanced (.push :: inner ++ .pop :: rest)

/-- A balanced history leaves the scopes open that were open before it. -/
theorem Balanced.legal {inner : List Step} (h : Balanced inner) {steps : List Step}
    (hlegal : Legal steps) :
    Legal (steps ++ inner) ∧ openScopes (steps ++ inner) = openScopes steps := by
  induction h generalizing steps with
  | nil => simpa using hlegal
  | @step s rest stays _ ih =>
      have hopen : openScopes (steps ++ [s]) = openScopes steps := by
        rw [openScopes_append_one]
        cases s <;> first | rfl | exact (stays.1 rfl).elim | exact (stays.2 rfl).elim
      have hnonempty : openScopes (steps ++ [s]) ≠ [] := by
        rw [hopen]
        exact hlegal.ne_nil
      obtain ⟨hrest, hsame⟩ := ih (legal_append_one.mpr ⟨hlegal, hnonempty⟩)
      rw [List.append_assoc, List.singleton_append] at hrest hsame
      exact ⟨hrest, hsame.trans hopen⟩
  | @block inner rest _ _ ihbody ihnext =>
      have hpush := openScopes_append_one steps .push
      obtain ⟨hbody, hinside⟩ := ihbody (legal_append_one.mpr ⟨hlegal, by rw [hpush]; exact nofun⟩)
      -- The frame that was opened first is the one that is closed now.
      have hpop : openScopes (steps ++ [.push] ++ inner ++ [.pop]) = openScopes steps := by
        rw [openScopes_append_one, hinside, hpush]
        rfl
      obtain ⟨hrest, hsame⟩ :=
        ihnext (legal_append_one.mpr ⟨hbody, by rw [hpop]; exact hlegal.ne_nil⟩)
      simp only [List.append_assoc, List.singleton_append] at hrest hsame hpop
      exact ⟨hrest, hsame.trans hpop⟩

namespace Desk

theorem step_outer (d : Desk) (hs : s ≠ .push ∧ s ≠ .pop) :
    ∃ d', (d.step s).2 = some d' ∧ d'.scope.outer = d.scope.outer := by
  cases s with
  | push => exact (hs.1 rfl).elim
  | pop => exact (hs.2 rfl).elim
  | defineVariable | defineFunction | entry => exact ⟨_, rfl, rfl⟩
  | findVariable | findFunction =>
      refine ⟨d, ?_, rfl⟩
      simp only [step]
      split <;> rfl
  | write name text =>
      obtain ⟨entries, hstep, -⟩ := step_write d name text
      exact ⟨_, hstep, rfl⟩

/-- A frame that was opened is closed again, and leaves the scope as it was. -/
theorem after?_pop {d d₁ : Desk} {inner : List Step} (h : d.after? (.push :: inner) = some d₁)
    (houter : d₁.scope.outer = d.scope.frames) (rest : List Step) :
    d.after? (.push :: inner ++ .pop :: rest) =
      Desk.after? { d₁ with scope := d.scope } rest := by
  have hpop : d₁.scope.pop? = some d.scope := by
    rw [pop?, houter]
    rfl
  rw [after?_append, h, Option.bind_some, after?, step, hpop]
  rfl

theorem after?_balanced {inner : List Step} (h : Balanced inner) (d : Desk) :
    ∃ d', d.after? inner = some d' ∧ d'.scope.outer = d.scope.outer := by
  induction h generalizing d with
  | nil => exact ⟨d, rfl, rfl⟩
  | step stays _ ih =>
      obtain ⟨d₁, hstep, houter⟩ := step_outer d stays
      obtain ⟨d', hafter, houter'⟩ := ih d₁
      refine ⟨d', ?_, houter'.trans houter⟩
      rw [after?, hstep]
      exact hafter
  | block _ _ ihbody ihnext =>
      -- The body is left inside the frames that were there when it was entered.
      obtain ⟨d₁, hbody, houter⟩ := ihbody { d with scope := d.scope.push }
      obtain ⟨d', hnext, houter'⟩ := ihnext { d₁ with scope := d.scope }
      refine ⟨d', ?_, houter'⟩
      rw [after?_pop hbody houter]
      exact hnext

/-- **What a lookup answers**: the entry of the definition in force, as it is after the history, or
that the name is unknown if no open scope has a definition of it. -/
inductive Finds (steps : List Step) : Key → Answer → Prop
  | variable {name : String} {i : Nat} {e : VariableEntry}
      (inForce : InForce steps (.variable name) i) (entry : VariableOf steps i e) :
      Finds steps (.variable name) (.variable e)
  | function {name : String} {arity i : Nat} {e : FunctionEntry}
      (inForce : InForce steps (.function name arity) i) (entry : FunctionOf steps i e) :
      Finds steps (.function name arity) (.function e)
  | unknownVariable {name : String} (undefined : Undefined steps (.variable name)) :
      Finds steps (.variable name) (.unknown (.undefinedVariable name))
  | unknownFunction {name : String} {arity : Nat}
      (undefined : Undefined steps (.function name arity)) :
      Finds steps (.function name arity) (.unknown (.undefinedFunction name arity))

namespace Faithful

variable {d : Desk}

theorem finds_variable (h : Faithful steps d) (name : String) :
    Finds steps (.variable name) (d.step (.findVariable name)).1 := by
  rw [Desk.step, lookupVariable]
  cases hfind : d.scope.findVariable name with
  | some id =>
      cases h.findVariable hfind with
      | found inForce has =>
          obtain ⟨e, hget, -, he⟩ := h.entries.get has
          simp only [show?, hget]
          exact .variable inForce he
  | none =>
      cases h.findVariable hfind with
      | unknown undefined => exact .unknownVariable undefined

theorem finds_function (h : Faithful steps d) (name : String) (arity : Nat) :
    Finds steps (.function name arity) (d.step (.findFunction name arity)).1 := by
  rw [Desk.step, lookupFunction]
  cases hfind : d.scope.findFunction name arity with
  | some e =>
      cases h.findFunction hfind with
      | found inForce has => exact .function inForce has
  | none =>
      cases h.findFunction hfind with
      | unknown undefined => exact .unknownFunction undefined

/-- A write leaves every entry alone whose definition is not in force for the name. -/
theorem write_elsewhere (h : Faithful steps d) (name text : String) :
    ∃ entries : List VariableEntry, (d.step (.write name text)).2 = some { d with entries } ∧
      ∀ id i : Nat, (places Step.definesVariable steps)[id]? = some i →
        ¬InForce steps (.variable name) i → entries[id]? = d.entries[id]? := by
  obtain ⟨entries, hstep, hfound, hunknown⟩ := step_write d name text
  refine ⟨entries, hstep, fun id i hid hnot => ?_⟩
  cases hfind : d.scope.findVariable name with
  | some id' =>
      cases h.findVariable hfind with
      | found inForce has =>
          have hne : id' ≠ id := by
            rintro rfl
            obtain rfl := Option.some.inj (has.symm.trans hid)
            exact hnot inForce
          rw [hfound id' hfind]
          simp [hne]
  | none => rw [hunknown hfind]

end Faithful

/-- **Scopes tell the same as their history.** A legal script is answered to its end, and then:

* a lookup finds the entry of the latest definition in the innermost open scope that has one,
  holding what was last written to it, or nothing if no open scope has a definition;
* a block is legal, and leaves the scope as it was, so every name stands for the same entry as
  before, with all that was written to the entries in the block;
* a write through a name changes no entry of a definition that is shadowed, replaced or out of
  scope. -/
theorem lookups_follow_history {steps : List Step} (h : Legal steps) :
    ∃ d, empty.after? steps = some d ∧
      (∀ rest, empty.run (steps ++ rest) = empty.run steps ++ d.run rest) ∧
      (∀ name, Finds steps (.variable name) (d.step (.findVariable name)).1) ∧
      (∀ name arity,
        Finds steps (.function name arity) (d.step (.findFunction name arity)).1) ∧
      (∀ inner, Balanced inner → Legal (steps ++ (.push :: inner ++ [.pop])) ∧
        ∃ d₁, d.after? (.push :: inner) = some d₁ ∧
          d.after? (.push :: inner ++ [.pop]) = some { d₁ with scope := d.scope }) ∧
      ∀ name text, ∃ entries : List VariableEntry,
        (d.step (.write name text)).2 = some { d with entries } ∧
        ∀ id i : Nat, (places Step.definesVariable steps)[id]? = some i →
          ¬InForce steps (.variable name) i → entries[id]? = d.entries[id]? := by
  obtain ⟨d, hafter, hd⟩ := Faithful.of_legal h
  refine ⟨d, hafter, run_append hafter, hd.finds_variable, hd.finds_function, ?block,
    hd.write_elsewhere⟩
  case block =>
    intro inner hinner
    obtain ⟨d₁, hbody, houter⟩ := after?_balanced hinner { d with scope := d.scope.push }
    exact ⟨((Balanced.block hinner .nil).legal h).1, d₁, hbody, after?_pop hbody houter []⟩

/-- A script with a variable that is hidden in a block, where both it and another one are written
to, and replaced after it. -/
def shadowing : List Step :=
  [.defineVariable "x" true "1", .defineVariable "y" true "2", .push,
    .defineVariable "x" false "3", .write "x" "4", .write "y" "5", .pop,
    .defineVariable "x" true "6"]

theorem shadowing_follows_history :
    Legal shadowing ∧ ∃ d, empty.after? shadowing = some d ∧
      Finds shadowing (.variable "x") (d.step (.findVariable "x")).1 ∧
      (d.step (.findVariable "x")).1 = .variable ⟨3, "x", true, "6"⟩ ∧
      (d.step (.findVariable "y")).1 = .variable ⟨1, "y", true, "5"⟩ ∧
      d.entries = [⟨0, "x", true, "1"⟩, ⟨1, "y", true, "5"⟩, ⟨2, "x", false, "4"⟩,
        ⟨3, "x", true, "6"⟩] := by
  have hlegal : Legal shadowing := by decide
  obtain ⟨d, hafter, -, hfinds, -⟩ := lookups_follow_history hlegal
  have hdesk : d = ⟨⟨⟨[("x", 3), ("y", 1), ("x", 0)], []⟩, []⟩, [⟨0, "x", true, "1"⟩,
      ⟨1, "y", true, "5"⟩, ⟨2, "x", false, "4"⟩, ⟨3, "x", true, "6"⟩], 0⟩ :=
    Option.some.inj (hafter.symm.trans rfl)
  refine ⟨hlegal, d, hafter, hfinds "x", ?_, ?_, ?_⟩
  · rw [hdesk]
    rfl
  · rw [hdesk]
    rfl
  · rw [hdesk]

end Desk

end DynImp.Scope
