import DynImp.Proofs.Grammar.Phrase

/-!
# Readers take phrases

What a reader takes from the front of a list of tokens is a phrase of its kind, and what it
takes before it refuses is the beginning of such a phrase: something could have followed
that makes it whole.  There is one rule for each way in which readers are put together.

Nothing here rests on the bounds: a reader that gives up early still takes phrases only.
-/

namespace DynImp

namespace Grammar

open Reader

/-! ## §1 Reading phrases -/

/-- **Taking phrases.** The kind has a phrase at all, what is read is one, and what stands before a
refusal is the beginning of one. -/
structure Reader.Takes {α : Type} (x : Reader α) (P : α → List Token → Prop) : Prop where
  inhabited : ∃ a ts, P a ts
  ok : ∀ {ts a rest}, x ts = .ok (a, rest) → ∃ taken, ts = taken ++ rest ∧ P a taken
  error : ∀ {ts r}, x ts = .error r → ∃ taken a more, ts = taken ++ r.rest ∧ P a (taken ++ more)

/-- **Sequence.** A phrase, and after it one of a kind that may depend on it. -/
def Then {α β : Type} (P : α → List Token → Prop) (Q : α → β → List Token → Prop) (b : β)
    (ts : List Token) : Prop :=
  ∃ a s t, ts = s ++ t ∧ P a s ∧ Q a b t

theorem bind_apply {α β : Type} (x : Reader α) (f : α → Reader β) (ts : List Token) :
    (x >>= f) ts = match x ts with
      | .ok (a, rest) => f a rest
      | .error r => .error r := rfl

theorem bind_of_ok {α β : Type} {x : Reader α} {f : α → Reader β} {ts rest : List Token} {a : α}
    (h : x ts = .ok (a, rest)) : (x >>= f) ts = f a rest := by
  rw [bind_apply, h]

theorem bind_of_error {α β : Type} {x : Reader α} {f : α → Reader β} {ts : List Token}
    {r : Refusal} (h : x ts = .error r) : (x >>= f) ts = .error r := by
  rw [bind_apply, h]

theorem exists_of_bind_ok {α β : Type} {x : Reader α} {f : α → Reader β} {ts rest : List Token}
    {b : β} (h : (x >>= f) ts = .ok (b, rest)) :
    ∃ a mid, x ts = .ok (a, mid) ∧ f a mid = .ok (b, rest) := by
  cases hx : x ts with
  | error r =>
      rw [bind_of_error hx] at h
      cases h
  | ok result =>
      rw [bind_of_ok hx] at h
      exact ⟨_, _, rfl, h⟩

/-- A test that looks at the first token only, and fails without one. -/
structure Reader.HeadTest (test : List Token → Bool) (opens : Token → Bool) : Prop where
  nil : test [] = false
  cons : ∀ t ts, test (t :: ts) = opens t

theorem Reader.HeadTest.cons_eq {test : List Token → Bool} {opens : Token → Bool}
    (h : HeadTest test opens) {t : Token} (ts ts' : List Token) :
    test (t :: ts) = test (t :: ts') := by
  rw [h.cons, h.cons]

theorem headTest_startsWith (word : String) : HeadTest (startsWith word) (·.spells word) :=
  ⟨rfl, fun _ _ => rfl⟩

theorem headTest_startsWithAny (words : List String) :
    HeadTest (startsWithAny words) fun t => words.any t.spells := by
  refine ⟨?_, fun _ _ => rfl⟩
  simp [startsWithAny, startsWith]

theorem headTest_inBlock : HeadTest inBlock beginsStatement := by
  refine ⟨rfl, fun t ts => ?_⟩
  simp [inBlock, beginsStatement, (headTest_startsWithAny blockEnds).cons]

/-- Reads on as the first token says, which is taken; refuses at the token if that says so, and for
`reason` if there is none. -/
def Reader.first {α : Type} (choose : Token → Except Reason (Reader α)) (reason : Reason) :
    Reader α
  | [] => .error ⟨[], reason⟩
  | t :: ts =>
    match choose t with
    | .ok x => x ts
    | .error reason' => .error ⟨t :: ts, reason'⟩

/-- Reads one token that tells something, and refuses at one that does not. -/
def Reader.single {α : Type} (tells : Token → Option α) (reason : Reason) : Reader α :=
  first (fun t => match tells t with
    | some a => .ok (pure a)
    | none => .error reason) reason

theorem require_eq_single (word : String) (reason : Reason) :
    require word reason =
      single (fun t => if t.spells word then some t.offset else none) reason := by
  funext ts
  cases ts with
  | nil => rfl
  | cons t ts =>
      cases ht : t.spells word
      · simp [require, single, first, ht]
      · simp [require, single, first, ht]
        rfl

theorem identifier_eq_single :
    identifier =
      single (fun t => if t.kind = .identifier then some t.text else none) .expectedIdentifier := by
  funext ts
  cases ts with
  | nil => rfl
  | cons t ts =>
      by_cases ht : t.kind = .identifier
      · simp [identifier, single, first, ht]
        rfl
      · simp [identifier, single, first, ht]

theorem repeatWhile_succ {α : Type} (more : List Token → Bool) (item : Reader α) (bound : Nat)
    (ts : List Token) :
    repeatWhile more item (bound + 1) ts =
      if more ts then
        (item >>= fun a => repeatWhile more item bound >>= fun as => pure (a :: as)) ts
      else .ok ([], ts) := rfl

/-- To accept a word is to look for it and then to expect it. -/
theorem accept_bind_ite {α : Type} (word : String) (x y : Reader α) :
    (accept word >>= fun found => if found = true then x else y) = fun ts =>
      if startsWith word ts then (expect word >>= fun _ => x) ts else y ts := by
  funext ts
  cases ts with
  | nil => rfl
  | cons t ts =>
      cases ht : t.spells word <;>
        simp [bind_apply, accept, expect, require, startsWith, ht]

/-- An enumeration is a phrase, and after it phrases that are each led by the mark. -/
theorem joined_iff {α : Type} {mark : String} {P : α → List Token → Prop} {a : α} {as : List α}
    {ts : List Token} :
    Joined mark P (a :: as) ts ↔
      ∃ s t, ts = s ++ t ∧ P a s ∧ Many (·.spells mark) (After mark P) as t := by
  constructor
  · intro h
    induction as generalizing a ts with
    | nil =>
        cases h with
        | one ha => exact ⟨ts, [], by simp, ha, .nil⟩
        | more _ _ hrest => cases hrest
    | cons b as ih =>
        cases h with
        | @more _ _ s t rest ha hmark hrest =>
            obtain ⟨s', t', rfl, hb, has⟩ := ih hrest
            exact ⟨s, t :: s' ++ t', rfl, ha, .cons hmark (.mk hmark hb) has⟩
  · rintro ⟨s, t, rfl, ha, has⟩
    induction has generalizing a s with
    | nil => simpa using Joined.one ha
    | cons _ hb _ ih =>
        cases hb with
        | mk hmark hb => exact .more ha hmark (ih _ hb)

section Many

variable {α : Type} {opens : Token → Bool} {P : α → List Token → Prop} {as : List α}
  {ts : List Token}

/-- What may follow phrases is what may follow the last of them, if an opening token may. -/
theorem Many.follow {F : List Token → Prop} {rest : List Token} (h : Many opens P as ts)
    (hF : ∀ t ts, opens t → F (t :: ts)) (hrest : F rest) : F (ts ++ rest) := by
  cases h with
  | nil => exact hrest
  | cons ht _ _ => exact hF _ _ ht

variable {more : List Token → Bool}

theorem Reader.HeadTest.many_iff (hmore : HeadTest more opens) (hP : ∀ a, ¬ P a [])
    (ht : more ts = true) :
    Then P (fun a bs us => ∃ cs, bs = a :: cs ∧ Many opens P cs us) as ts ↔ Many opens P as ts := by
  constructor
  · rintro ⟨a, s, _, rfl, ha, as, rfl, has⟩
    cases s with
    | nil => exact absurd ha (hP a)
    | cons t s => exact .cons ((hmore.cons t _).symm.trans ht) ha has
  · intro has
    cases has with
    | nil => exact absurd (hmore.nil.symm.trans ht) Bool.false_ne_true
    | cons _ ha has => exact ⟨_, _, _, rfl, ha, _, rfl, has⟩

theorem Reader.HeadTest.nil_iff (hmore : HeadTest more opens) (ht : more ts = false) :
    (as = [] ∧ ts = []) ↔ Many opens P as ts := by
  constructor
  · rintro ⟨rfl, rfl⟩
    exact .nil
  · intro has
    cases has with
    | nil => exact ⟨rfl, rfl⟩
    | cons hopens => exact absurd ht (by simp [hmore.cons, hopens])

end Many

namespace Reader.Takes

variable {α β : Type} {P : α → List Token → Prop} {x : Reader α}

theorem imp {P' : α → List Token → Prop} (hx : x.Takes P) (h : ∀ a ts, P a ts → P' a ts) :
    x.Takes P' where
  inhabited := by
    obtain ⟨a, ts, ha⟩ := hx.inhabited
    exact ⟨a, ts, h a ts ha⟩
  ok hok := by
    obtain ⟨taken, hts, ha⟩ := hx.ok hok
    exact ⟨taken, hts, h _ _ ha⟩
  error herror := by
    obtain ⟨taken, a, more, hts, ha⟩ := hx.error herror
    exact ⟨taken, a, more, hts, h _ _ ha⟩

theorem length_le (hx : x.Takes P) {ts rest : List Token} {a : α} (h : x ts = .ok (a, rest)) :
    rest.length ≤ ts.length := by
  obtain ⟨taken, rfl, -⟩ := hx.ok h
  simp

theorem length_le_of_error (hx : x.Takes P) {ts : List Token} {r : Refusal}
    (h : x ts = .error r) : r.rest.length ≤ ts.length := by
  obtain ⟨taken, -, -, rfl, -⟩ := hx.error h
  simp

theorem pure (a : α) : (Pure.pure a : Reader α).Takes fun b ts => b = a ∧ ts = [] where
  inhabited := ⟨a, [], rfl, rfl⟩
  ok h := by
    cases h
    exact ⟨[], rfl, rfl, rfl⟩
  error h := nomatch h

theorem bind {f : α → Reader β} {Q : α → β → List Token → Prop} (hx : x.Takes P)
    (hf : ∀ a, (f a).Takes (Q a)) : (x >>= f).Takes (Then P Q) where
  inhabited := by
    obtain ⟨a, s, ha⟩ := hx.inhabited
    obtain ⟨b, t, hb⟩ := (hf a).inhabited
    exact ⟨b, s ++ t, a, s, t, rfl, ha, hb⟩
  ok {ts b rest} h := by
    cases hxts : x ts with
    | error r =>
        rw [bind_of_error hxts] at h
        cases h
    | ok result =>
        obtain ⟨a, mid⟩ := result
        rw [bind_of_ok hxts] at h
        obtain ⟨s, rfl, ha⟩ := hx.ok hxts
        obtain ⟨t, rfl, hb⟩ := (hf a).ok h
        exact ⟨s ++ t, (List.append_assoc ..).symm, a, s, t, rfl, ha, hb⟩
  error {ts r} h := by
    cases hxts : x ts with
    | error r' =>
        -- The first phrase is completed, and any second one may follow it.
        rw [bind_of_error hxts] at h
        cases h
        obtain ⟨taken, a, more, hts, ha⟩ := hx.error hxts
        obtain ⟨b, t, hb⟩ := (hf a).inhabited
        exact ⟨taken, b, more ++ t, hts, a, taken ++ more, t, by simp, ha, hb⟩
    | ok result =>
        obtain ⟨a, mid⟩ := result
        rw [bind_of_ok hxts] at h
        obtain ⟨s, rfl, ha⟩ := hx.ok hxts
        obtain ⟨taken, b, more, rfl, hb⟩ := (hf a).error h
        exact ⟨s ++ taken, b, more, by simp, a, s, taken ++ more, by simp, ha, hb⟩

theorem refuse {reason : Reason} (h : ∃ a ts, P a ts) :
    (Reader.refuse reason : Reader α).Takes P where
  inhabited := h
  ok h := nomatch h
  error h' := by
    cases h'
    obtain ⟨a, ts, ha⟩ := h
    exact ⟨[], a, ts, rfl, ha⟩

/-- The first token decides how to go on. -/
theorem first {choose : Token → Except Reason (Reader α)} {reason : Reason}
    (hP : ∃ a ts, P a ts)
    (hchoose : ∀ t x, choose t = .ok x → x.Takes fun a ts => P a (t :: ts)) :
    (Reader.first choose reason).Takes P where
  inhabited := hP
  ok {ts a rest} h := by
    cases ts with
    | nil => cases h
    | cons t ts =>
        rw [Reader.first] at h
        split at h
        · next x hx =>
            obtain ⟨taken, rfl, ha⟩ := (hchoose t x hx).ok h
            exact ⟨t :: taken, rfl, ha⟩
        · cases h
  error {ts r} h := by
    obtain ⟨b, s, hb⟩ := hP
    cases ts with
    | nil =>
        cases h
        exact ⟨[], b, s, rfl, hb⟩
    | cons t ts =>
        rw [Reader.first] at h
        split at h
        · next x hx =>
            obtain ⟨taken, a, more, rfl, ha⟩ := (hchoose t x hx).error h
            exact ⟨t :: taken, a, more, rfl, ha⟩
        · cases h
          exact ⟨[], b, s, rfl, hb⟩

theorem spells_self (word : String) : Token.spells ⟨.operator, word, 0⟩ word := by
  simp [Token.spells]

/-! ## §2 Looking at the next token -/

/-- A branch on the next token.  The first branch takes at least this token. -/
theorem ite {test : List Token → Bool} {opens : Token → Bool} (htest : HeadTest test opens)
    {y : Reader α} {Q R : α → List Token → Prop} (hx : x.Takes P) (hy : y.Takes Q)
    (hP : ∀ a, ¬ P a []) (hR : ∃ a ts, R a ts) (hthen : ∀ a ts, P a ts → test ts → R a ts)
    (helse : ∀ a ts, Q a ts → test ts = false → R a ts) :
    Takes (fun ts => if test ts then x ts else y ts) R := by
  refine ⟨hR, fun {ts a rest} h => ?_, fun {ts r} h => ?_⟩
  · split at h
    · next ht =>
        obtain ⟨taken, rfl, ha⟩ := hx.ok h
        cases taken with
        | nil => exact absurd ha (hP a)
        | cons t taken => exact ⟨t :: taken, rfl, hthen _ _ ha ((htest.cons_eq _ _).trans ht)⟩
    · next ht =>
        obtain ⟨taken, rfl, ha⟩ := hy.ok h
        refine ⟨taken, rfl, helse _ _ ha ?_⟩
        cases taken with
        | nil => exact htest.nil
        | cons t taken => exact (htest.cons_eq _ _).trans (by simpa using ht)
  · obtain ⟨b, s, hb⟩ := hR
    split at h
    · next ht =>
        obtain ⟨taken, a, more, rfl, ha⟩ := hx.error h
        cases taken with
        -- Nothing is taken yet, so any phrase will do.
        | nil => exact ⟨[], b, s, rfl, hb⟩
        | cons t taken =>
            exact ⟨t :: taken, a, more, rfl, hthen _ _ ha ((htest.cons_eq _ _).trans ht)⟩
    · next ht =>
        obtain ⟨taken, a, more, rfl, ha⟩ := hy.error h
        cases taken with
        | nil => exact ⟨[], b, s, rfl, hb⟩
        | cons t taken =>
            refine ⟨t :: taken, a, more, rfl, helse _ _ ha ?_⟩
            exact (htest.cons_eq _ _).trans (by simpa using ht)

end Reader.Takes

end Grammar

end DynImp
