import DynImp.Scope.Script
import Mathlib.Data.List.Forall2
import Mathlib.Data.List.Induction

/-!
# Scopes and their history

What names stand for, told from the steps of a script alone: which scopes are open after
them, which step defined a name in which scope, and which write was the last one that went
to an entry.  A stack of tables, one for each open scope, tells the same of one kind of names.

* **Layer A: histories**, without any frames or lookups.
* **Layer B: one more step** of a history, and what becomes of its entries.
* **Layer C: tables.** A stack of them reflects a history step by step, and a lookup that walks
  down the stack resolves a name as the history does.
-/

namespace DynImp.Scope

/-! ## §1 Histories -/

/-- **Key.** What a definition is for. -/
inductive Key where
  | variable (name : String)
  | function (name : String) (arity : Nat)
  deriving DecidableEq

/-- What a step defines. -/
def Step.key? : Step → Option Key
  | defineVariable name _ _ => some (.variable name)
  | defineFunction name arity _ => some (.function name arity)
  | _ => none

/-- The open scopes after a step of some number, given those before it. -/
def Step.reopen (number : Nat) (scopes : List Nat) : Step → List Nat
  | push => number :: scopes
  | pop => scopes.tail
  | _ => scopes

/-- **Open scopes** after a history, the innermost first.  A scope is known by the number of the
step that opened it, counted from 1; the outermost one is 0. -/
def openScopes (steps : List Step) : List Nat :=
  steps.zipIdx.foldl (fun scopes s => s.1.reopen (s.2 + 1) scopes) [0]

/-- **Legal histories**: no step closes the outermost scope. -/
def Legal (steps : List Step) : Prop := ∀ i ≤ steps.length, openScopes (steps.take i) ≠ []

instance : DecidablePred Legal := fun steps =>
  inferInstanceAs (Decidable (∀ i ≤ steps.length, openScopes (steps.take i) ≠ []))

/-- A step of a history, together with what came before it. -/
def Moment (P : List Step → Step → Prop) (steps : List Step) (i : Nat) : Prop :=
  ∃ s, steps[i]? = some s ∧ P (steps.take i) s

/-- **Definitions.** A step defines something in a scope, the innermost one at its time. -/
def DefinedIn (steps : List Step) (key : Key) (scope : Nat) : Nat → Prop :=
  Moment (fun before s => s.key? = some key ∧ (openScopes before).head? = some scope) steps

/-- **The definition in force**: the latest one in the innermost open scope that has any. -/
def InForce (steps : List Step) (key : Key) (i : Nat) : Prop :=
  ∃ inside scope outside, openScopes steps = inside ++ scope :: outside ∧
    (∀ inner ∈ inside, ∀ j, ¬DefinedIn steps key inner j) ∧
    DefinedIn steps key scope i ∧ ∀ j, DefinedIn steps key scope j → j ≤ i

/-- No scope that is open has a definition. -/
def Undefined (steps : List Step) (key : Key) : Prop :=
  ∀ scope ∈ openScopes steps, ∀ i, ¬DefinedIn steps key scope i

/-- **Writes.** A step writes a text through a name for which a certain definition is in force. -/
def Wrote (steps : List Step) (i : Nat) (text : String) : Nat → Prop :=
  Moment (fun before s => ∃ name, s = .write name text ∧ InForce before (.variable name) i) steps

/-- **What the variable of a definition holds**: the text of the last write to it, or the text it
was defined with. -/
inductive Holds (steps : List Step) (i : Nat) : String → Prop where
  | defined {name : String} {mutable : Bool} {text : String}
      (made : steps[i]? = some (.defineVariable name mutable text))
      (never : ∀ j t, ¬Wrote steps i t j) : Holds steps i text
  | written {j : Nat} {text : String} (wrote : Wrote steps i text j)
      (last : ∀ k t, Wrote steps i t k → k ≤ j) : Holds steps i text

/-- The places of steps of one kind. -/
def places (kind : Step → Bool) (steps : List Step) : List Nat :=
  steps.zipIdx.filterMap fun s => if kind s.1 then some s.2 else none

/-- Whether a step defines a variable. -/
def Step.definesVariable : Step → Bool
  | defineVariable .. => true
  | _ => false

/-- Whether a step defines a function. -/
def Step.definesFunction : Step → Bool
  | defineFunction .. => true
  | _ => false

/-- **The entry of a variable definition** after a history.  Entries are counted in the order of
their definitions, so the number of an entry tells the step it was made in. -/
structure VariableOf (steps : List Step) (i : Nat) (e : VariableEntry) : Prop where
  number : (places Step.definesVariable steps)[e.id]? = some i
  made : ∃ text, steps[i]? = some (.defineVariable e.name e.mutable text)
  held : Holds steps i e.text

/-- **The entry of a function definition.** -/
structure FunctionOf (steps : List Step) (i : Nat) (e : FunctionEntry) : Prop where
  number : (places Step.definesFunction steps)[e.id]? = some i
  made : steps[i]? = some (.defineFunction e.name e.arity e.text)

variable {steps : List Step} {s : Step} {key : Key} {i j : Nat} {text : String}

/-! ## §2 One more step -/

theorem openScopes_append_one (steps : List Step) (s : Step) :
    openScopes (steps ++ [s]) = s.reopen (steps.length + 1) (openScopes steps) := by
  simp [openScopes, List.zipIdx_append]

theorem places_append_one (kind : Step → Bool) (steps : List Step) (s : Step) :
    places kind (steps ++ [s]) = places kind steps ++ if kind s then [steps.length] else [] := by
  simp only [places, List.zipIdx_append, List.filterMap_append, Nat.zero_add, List.zipIdx_singleton,
    List.filterMap_cons, List.filterMap_nil]
  cases kind s <;> rfl

theorem places_append_other {kind : Step → Bool} (hs : kind s = false) :
    places kind (steps ++ [s]) = places kind steps := by
  rw [places_append_one, hs]
  exact List.append_nil _

theorem legal_append_one :
    Legal (steps ++ [s]) ↔ Legal steps ∧ openScopes (steps ++ [s]) ≠ [] := by
  constructor
  · intro h
    constructor
    · intro i hi
      have hlegal := h i (by rw [List.length_append]; omega)
      rwa [List.take_append_of_le_length hi] at hlegal
    · have hlegal := h _ (Nat.le_refl _)
      rwa [List.take_length] at hlegal
  · rintro ⟨hlegal, hopen⟩ i hi
    rcases Nat.lt_or_ge steps.length i with hlt | hge
    · -- All steps are taken.
      rwa [List.take_of_length_le (by simpa using Nat.succ_le_of_lt hlt)]
    · rw [List.take_append_of_le_length hge]
      exact hlegal i hge

theorem Legal.ne_nil (h : Legal steps) : openScopes steps ≠ [] := by
  have hlegal := h _ (Nat.le_refl _)
  rwa [List.take_length] at hlegal

theorem getElem?_append_one (h : steps[i]? = some s) (s' : Step) :
    (steps ++ [s'])[i]? = some s := by
  rw [List.getElem?_append_left (List.getElem?_eq_some_iff.mp h).1, h]

theorem moment_append_one {P : List Step → Step → Prop} :
    Moment P (steps ++ [s]) i ↔ Moment P steps i ∨ i = steps.length ∧ P steps s := by
  unfold Moment
  -- Earlier steps see the same history before them, and there are no later ones.
  rcases Nat.lt_trichotomy i steps.length with hlt | rfl | hgt
  · rw [List.getElem?_append_left hlt, List.take_append_of_le_length (Nat.le_of_lt hlt)]
    simp [Nat.ne_of_lt hlt]
  · simp
  · rw [List.getElem?_eq_none (l := steps ++ [s]) (by simpa using Nat.succ_le_of_lt hgt),
      List.getElem?_eq_none (Nat.le_of_lt hgt)]
    simp [Nat.ne_of_gt hgt]

theorem Moment.lt {P : List Step → Step → Prop} (h : Moment P steps i) : i < steps.length := by
  obtain ⟨s, hs, -⟩ := h
  exact (List.getElem?_eq_some_iff.mp hs).1

theorem DefinedIn.lt {scope : Nat} (h : DefinedIn steps key scope i) : i < steps.length :=
  Moment.lt h

theorem InForce.lt (h : InForce steps key i) : i < steps.length := by
  obtain ⟨_, _, _, -, -, hdefined, -⟩ := h
  exact hdefined.lt

/-- Only one definition is in force. -/
theorem InForce.unique (h : InForce steps key i) (h' : InForce steps key j) : i = j := by
  classical
  obtain ⟨inside, scope, outside, hopen, hinside, hi, hlast⟩ := h
  obtain ⟨inside', scope', outside', hopen', hinside', hj, hlast'⟩ := h'
  -- Both scopes are the first with a definition.
  have hfind : ∀ {inside scope outside}, openScopes steps = inside ++ scope :: outside →
      (∀ inner ∈ inside, ∀ k, ¬DefinedIn steps key inner k) → (∃ k, DefinedIn steps key scope k) →
      (openScopes steps).find? (fun s => decide (∃ k, DefinedIn steps key s k)) = some scope := by
    intro inside scope outside hopen hinside hdefined
    refine List.find?_eq_some_iff_append.mpr ⟨decide_eq_true hdefined, inside, outside, hopen, ?_⟩
    intro inner hinner
    simpa using hinside inner hinner
  obtain rfl : scope = scope' :=
    Option.some.inj ((hfind hopen hinside ⟨i, hi⟩).symm.trans (hfind hopen' hinside' ⟨j, hj⟩))
  exact Nat.le_antisymm (hlast' i hi) (hlast j hj)

theorem Undefined.not_inForce (h : Undefined steps key) : ¬InForce steps key i := by
  intro hforce
  obtain ⟨inside, scope, outside, hopen, -, hdefined, -⟩ := hforce
  refine h scope ?_ i hdefined
  rw [hopen]
  exact List.mem_append_right _ List.mem_cons_self

/-- Scopes are opened one after the other, each one inside those that are open. -/
theorem openScopes_ordered (steps : List Step) :
    (openScopes steps).Pairwise (· > ·) ∧ ∀ scope ∈ openScopes steps, scope ≤ steps.length := by
  induction steps using List.reverseRecOn with
  | nil => simp [openScopes]
  | append_singleton steps s ih =>
      obtain ⟨hordered, hbound⟩ := ih
      rw [openScopes_append_one, List.length_append, List.length_singleton]
      have hlater : ∀ scope ∈ openScopes steps, scope ≤ steps.length + 1 := fun scope hscope =>
        Nat.le_succ_of_le (hbound scope hscope)
      cases s with
      | push =>
          -- The new scope has the highest number so far.
          have hinner : ∀ scope ∈ openScopes steps, scope < steps.length + 1 := fun scope hscope =>
            Nat.lt_succ_of_le (hbound scope hscope)
          exact ⟨List.pairwise_cons.mpr ⟨hinner, hordered⟩,
            List.forall_mem_cons.mpr ⟨Nat.le_refl _, hlater⟩⟩
      | pop =>
          exact ⟨hordered.tail, fun scope hscope => hlater scope (List.mem_of_mem_tail hscope)⟩
      | _ => exact ⟨hordered, hlater⟩

/-- No two entries are made in one step. -/
theorem places_nodup (kind : Step → Bool) (steps : List Step) :
    (places kind steps).Nodup ∧ ∀ i ∈ places kind steps, i < steps.length := by
  induction steps using List.reverseRecOn with
  | nil => simp [places]
  | append_singleton steps s ih =>
      obtain ⟨hnodup, hbound⟩ := ih
      rw [List.length_append, List.length_singleton]
      cases hs : kind s with
      | false =>
          rw [places_append_other hs]
          exact ⟨hnodup, fun i hi => Nat.lt_succ_of_lt (hbound i hi)⟩
      | true =>
          rw [places_append_one, hs, if_pos rfl]
          refine ⟨List.nodup_append.mpr ⟨hnodup, List.pairwise_singleton _ _, ?_⟩, ?_⟩
          · intro i hi j hj
            obtain rfl := List.mem_singleton.mp hj
            exact Nat.ne_of_lt (hbound i hi)
          · intro i hi
            rcases List.mem_append.mp hi with hi | hi
            · exact Nat.lt_succ_of_lt (hbound i hi)
            · obtain rfl := List.mem_singleton.mp hi
              exact Nat.lt_succ_self _

/-! ### Entries -/

variable {e : VariableEntry} {name : String} {mutable : Bool}

theorem wrote_append_one : Wrote (steps ++ [s]) i text j ↔
    Wrote steps i text j ∨
      j = steps.length ∧ ∃ name, s = .write name text ∧ InForce steps (.variable name) i :=
  moment_append_one

theorem Wrote.lt_length (h : Wrote steps i text j) : j < steps.length := Moment.lt h

/-- A variable is only written to after it was defined. -/
theorem Wrote.lt (h : Wrote steps i text j) : i < j := by
  obtain ⟨s, -, name, -, hforce⟩ := h
  exact Nat.lt_of_lt_of_le hforce.lt (List.length_take_le _ _)

theorem places_getElem?_append_one {kind : Step → Bool} {id : Nat}
    (h : (places kind steps)[id]? = some i) (s : Step) :
    (places kind (steps ++ [s]))[id]? = some i := by
  rw [places_append_one, List.getElem?_append_left (List.getElem?_eq_some_iff.mp h).1, h]

/-- A step that makes an entry makes the next one. -/
theorem places_getElem?_self {kind : Step → Bool} (hs : kind s = true) :
    (places kind (steps ++ [s]))[(places kind steps).length]? = some steps.length := by
  rw [places_append_one, hs]
  exact List.getElem?_concat_length

/-- What is not written to stays the same. -/
theorem VariableOf.later (h : VariableOf steps i e)
    (hs : ∀ name text, s = .write name text → ¬InForce steps (.variable name) i) :
    VariableOf (steps ++ [s]) i e where
  number := places_getElem?_append_one h.number s
  made := by
    obtain ⟨text, hmade⟩ := h.made
    exact ⟨text, getElem?_append_one hmade s⟩
  held := by
    have hsame : ∀ j t, Wrote (steps ++ [s]) i t j ↔ Wrote steps i t j := by
      intro j t
      rw [wrote_append_one, or_iff_left]
      rintro ⟨-, name, hwrite, hforce⟩
      exact hs name t hwrite hforce
    cases h.held with
    | defined made never =>
        exact .defined (getElem?_append_one made s) fun j t hw => never j t ((hsame j t).mp hw)
    | written wrote last =>
        exact .written ((hsame _ _).mpr wrote) fun k t hw => last k t ((hsame k t).mp hw)

/-- A write goes to the entry of the definition in force. -/
theorem VariableOf.write (h : VariableOf steps i e) (hforce : InForce steps (.variable name) i)
    (text : String) : VariableOf (steps ++ [.write name text]) i { e with text } where
  number := places_getElem?_append_one h.number _
  made := by
    obtain ⟨text', hmade⟩ := h.made
    exact ⟨text', getElem?_append_one hmade _⟩
  held := by
    refine .written (wrote_append_one.mpr (Or.inr ⟨rfl, name, rfl, hforce⟩)) fun k t hw => ?_
    rw [wrote_append_one] at hw
    rcases hw with hw | ⟨rfl, -⟩
    · exact Nat.le_of_lt hw.lt_length
    · exact Nat.le_refl _

/-- A definition makes the next entry. -/
theorem VariableOf.new (steps : List Step) (name : String) (mutable : Bool) (text : String) :
    VariableOf (steps ++ [.defineVariable name mutable text]) steps.length
      ⟨(places Step.definesVariable steps).length, name, mutable, text⟩ where
  number := places_getElem?_self rfl
  made := ⟨text, List.getElem?_concat_length⟩
  held := by
    refine .defined List.getElem?_concat_length fun j t hw => ?_
    rcases wrote_append_one.mp hw with hw | ⟨-, name', hwrite, -⟩
    · exact Nat.lt_asymm hw.lt hw.lt_length
    · cases hwrite

theorem FunctionOf.later {f : FunctionEntry} (h : FunctionOf steps i f) (s : Step) :
    FunctionOf (steps ++ [s]) i f :=
  ⟨places_getElem?_append_one h.number s, getElem?_append_one h.made s⟩

theorem FunctionOf.new (steps : List Step) (name : String) (arity : Nat) (text : String) :
    FunctionOf (steps ++ [.defineFunction name arity text]) steps.length
      ⟨(places Step.definesFunction steps).length, name, arity, text⟩ :=
  ⟨places_getElem?_self rfl, List.getElem?_concat_length⟩

/-! ## §3 Tables -/

/-- **Table.** One kind of names: what the keys of its rows are, and what is said of a value that a
row has for a definition. -/
structure Table (κ β : Type) where
  key : κ → Key
  injective : ∀ {k k'}, key k = key k' → k = k'
  value : List Step → Nat → β → Prop
  value_later : ∀ {steps i b} s, value steps i b → value (steps ++ [s]) i b

/-- Variables, which stand for entries by their numbers. -/
def variableTable : Table String Nat where
  key := .variable
  injective h := by cases h; rfl
  value steps i id := (places Step.definesVariable steps)[id]? = some i
  value_later s h := places_getElem?_append_one h s

/-- Functions, which stand for their entries. -/
def functionTable : Table (String × Nat) FunctionEntry where
  key k := .function k.1 k.2
  injective {k k'} h := by cases k; cases k'; cases h; rfl
  value := FunctionOf
  value_later s h := h.later s

/-- **The latest definition** out of some: its value, if there are any. -/
inductive Latest {β : Type} (defined : Nat → Prop) (value : Nat → β → Prop) : Option β → Prop
  | found {i : Nat} {b : β} (is : defined i) (last : ∀ j, defined j → j ≤ i) (has : value i b) :
      Latest defined value (some b)
  | absent (never : ∀ i, ¬defined i) : Latest defined value none

namespace Table

variable {κ β : Type} [BEq κ] {T : Table κ β} {rows : List (κ × β)}
  {stack : List (List (κ × β))} {scope : Nat}

variable (T) in
/-- The rows of a frame show the definitions in a scope. -/
def Shows (steps : List Step) (scope : Nat) (rows : List (κ × β)) : Prop :=
  ∀ k, Latest (DefinedIn steps (T.key k) scope) (T.value steps) (rows.lookup k)

variable (T) in
/-- **Reflection.** The frames are the open scopes, each with its definitions. -/
def Reflects (steps : List Step) (stack : List (List (κ × β))) : Prop :=
  List.Forall₂ (T.Shows steps) (openScopes steps) stack

variable (T) in
/-- **Resolution** of a name: to the value of the definition in force, or to nothing if no open
scope has a definition. -/
inductive Resolves (steps : List Step) (k : κ) : Option β → Prop
  | found {i : Nat} {b : β} (inForce : InForce steps (T.key k) i) (has : T.value steps i b) :
      Resolves steps k (some b)
  | unknown (undefined : Undefined steps (T.key k)) : Resolves steps k none

/-! ### Tables after a step -/

omit [BEq κ] in
/-- A step that does not define a name in a scope. -/
theorem latest_later {k : κ} {value : Option β}
    (h : Latest (DefinedIn steps (T.key k) scope) (T.value steps) value)
    (hs : s.key? = some (T.key k) → (openScopes steps).head? ≠ some scope) :
    Latest (DefinedIn (steps ++ [s]) (T.key k) scope) (T.value (steps ++ [s])) value := by
  have hsame : ∀ i, DefinedIn (steps ++ [s]) (T.key k) scope i ↔
      DefinedIn steps (T.key k) scope i := by
    intro i
    unfold DefinedIn
    rw [moment_append_one, or_iff_left]
    rintro ⟨-, hkey, hhead⟩
    exact hs hkey hhead
  cases h with
  | found is last has =>
      exact .found ((hsame _).mpr is) (fun j hj => last j ((hsame j).mp hj)) (T.value_later s has)
  | absent never => exact .absent fun i hi => never i ((hsame i).mp hi)

/-- A step that defines nothing in a scope. -/
theorem Shows.later (h : T.Shows steps scope rows)
    (hs : ∀ k, s.key? = some (T.key k) → (openScopes steps).head? ≠ some scope) :
    T.Shows (steps ++ [s]) scope rows :=
  fun k => latest_later (h k) (hs k)

/-- A step that defines something in a scope. -/
theorem Shows.define [LawfulBEq κ] {k : κ} {b : β} (h : T.Shows steps scope rows)
    (hscope : (openScopes steps).head? = some scope) (hkey : s.key? = some (T.key k))
    (hb : T.value (steps ++ [s]) steps.length b) :
    T.Shows (steps ++ [s]) scope ((k, b) :: rows) := by
  intro k'
  by_cases hk : k' = k
  · subst hk
    rw [List.lookup_cons_self]
    -- No step is later than this one.
    refine .found (moment_append_one.mpr (Or.inr ⟨rfl, hkey, hscope⟩)) (fun j hj => ?_) hb
    exact Nat.le_of_lt_succ (by simpa using hj.lt)
  · rw [List.lookup_cons, beq_false_of_ne hk]
    -- Another key: one step defines one thing.
    refine latest_later (h k') fun hkey' => ?_
    exact (hk (T.injective (Option.some.inj (hkey'.symm.trans hkey)))).elim

/-- A scope that was just opened. -/
theorem Shows.fresh (hscope : steps.length ≤ scope) : T.Shows steps scope [] := by
  intro k
  refine .absent fun i hi => ?_
  have hlt := hi.lt
  obtain ⟨s, -, -, hhead⟩ := hi
  have hbound := (openScopes_ordered _).2 _ (List.mem_of_mem_head? hhead)
  have htake := List.length_take_le i steps
  omega

namespace Reflects

theorem start (T : Table κ β) : T.Reflects [] [[]] :=
  .cons (.fresh (Nat.zero_le _)) .nil

theorem push (h : T.Reflects steps stack) : T.Reflects (steps ++ [.push]) ([] :: stack) := by
  rw [Reflects, openScopes_append_one]
  refine .cons (.fresh (by simp)) (h.imp fun scope rows hrows => ?_)
  exact hrows.later nofun

theorem pop (h : T.Reflects steps (rows :: stack)) : T.Reflects (steps ++ [.pop]) stack := by
  rw [Reflects, openScopes_append_one]
  rw [Reflects] at h
  cases hopen : openScopes steps with
  | nil => rw [hopen] at h; cases h
  | cons scope scopes =>
      rw [hopen] at h
      obtain ⟨-, hstack⟩ := List.forall₂_cons.mp h
      exact hstack.imp fun scope rows hrows => hrows.later nofun

/-- A step that defines nothing of this kind, and neither opens nor closes a scope. -/
theorem idle (h : T.Reflects steps stack) (hs : ∀ k, s.key? ≠ some (T.key k))
    (hopen : openScopes (steps ++ [s]) = openScopes steps) : T.Reflects (steps ++ [s]) stack := by
  rw [Reflects, hopen]
  exact h.imp fun scope rows hrows => hrows.later fun k hk => (hs k hk).elim

theorem define [LawfulBEq κ] {k : κ} {b : β} (h : T.Reflects steps (rows :: stack))
    (hkey : s.key? = some (T.key k)) (hopen : openScopes (steps ++ [s]) = openScopes steps)
    (hb : T.value (steps ++ [s]) steps.length b) :
    T.Reflects (steps ++ [s]) (((k, b) :: rows) :: stack) := by
  have hordered := (openScopes_ordered steps).1
  rw [Reflects, hopen]
  rw [Reflects] at h
  cases hscopes : openScopes steps with
  | nil => rw [hscopes] at h; cases h
  | cons scope scopes =>
      rw [hscopes] at h hordered
      obtain ⟨hrows, hstack⟩ := List.forall₂_cons.mp h
      refine .cons (hrows.define (by rw [hscopes]; rfl) hkey hb) ?_
      -- All other scopes are further out.
      have houter : ∀ outer ∈ scopes, (openScopes steps).head? ≠ some outer := by
        intro outer houter hhead
        rw [hscopes] at hhead
        obtain rfl := Option.some.inj hhead
        exact Nat.lt_irrefl _ (List.rel_of_pairwise_cons hordered houter)
      refine ((List.forall₂_and_left scopes stack).mpr ⟨houter, hstack⟩).imp fun outer rows h => ?_
      exact h.2.later fun _ _ => h.1

private theorem find_from (before : List Nat) {scopes : List Nat} {k : κ}
    (h : List.Forall₂ (T.Shows steps) scopes stack)
    (hbefore : ∀ inner ∈ before, ∀ j, ¬DefinedIn steps (T.key k) inner j)
    (hopen : openScopes steps = before ++ scopes) :
    T.Resolves steps k (stack.findSome? (·.lookup k)) := by
  induction h generalizing before with
  | nil =>
      refine .unknown fun scope hscope => ?_
      rw [hopen, List.append_nil] at hscope
      exact hbefore scope hscope
  | @cons scope rows scopes stack hrows _ ih =>
      rw [List.findSome?_cons]
      have hlatest := hrows k
      cases hk : rows.lookup k with
      | some b =>
          rw [hk] at hlatest
          cases hlatest with
          | found is last has => exact .found ⟨before, scope, scopes, hopen, hbefore, is, last⟩ has
      | none =>
          rw [hk] at hlatest
          cases hlatest with
          | absent never =>
              -- Nothing here: the search goes on further out.
              refine ih (before ++ [scope]) ?_ (by simpa using hopen)
              intro inner hinner
              rcases List.mem_append.mp hinner with hinner | hinner
              · exact hbefore inner hinner
              · obtain rfl := List.mem_singleton.mp hinner
                exact never

/-- **Lookups** walk from frame to frame as the history does from scope to scope. -/
theorem find (h : T.Reflects steps stack) (k : κ) :
    T.Resolves steps k (stack.findSome? (·.lookup k)) :=
  find_from [] h nofun rfl

end Reflects

end Table

end DynImp.Scope
