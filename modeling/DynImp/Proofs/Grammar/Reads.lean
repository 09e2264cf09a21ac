import DynImp.Proofs.Grammar.Takes

/-!
# Readers read phrases

Taking phrases (`Reader.Takes`) says what a reader may do.  Reading them, up to a number of
tokens, also says what it has to do:

* it goes by the tokens it takes and the next one, and by nothing else: not by what comes
  later, not by the offsets, and not by its bounds (`again`, `again_error`);
* it takes every phrase of its kind that is followed by something that does not go on with
  the phrase (`complete`).

Both are said for two readers that differ in their bounds alone.  What they return may differ
in its offsets; `view` is what it has in common.

* **Layer A: tokens without offsets.**
* **Layer B: one rule for each way in which readers are put together**, as for taking.
-/

namespace DynImp

/-! ## §1 Tokens without offsets -/

namespace Token

/-- **Face.** All of a token but the place where it stands. -/
def face (t : Token) : Kind × String := (t.kind, t.text)

variable {t t' : Token}

theorem kind_eq_of_face (h : t'.face = t.face) : t'.kind = t.kind := congrArg Prod.fst h

theorem text_eq_of_face (h : t'.face = t.face) : t'.text = t.text := congrArg Prod.snd h

theorem spells_eq_of_face (h : t'.face = t.face) (word : String) :
    t'.spells word = t.spells word := by
  rw [spells, spells, kind_eq_of_face h, text_eq_of_face h]

theorem scalar?_eq_of_face (h : t'.face = t.face) : t'.scalar? = t.scalar? := by
  rw [scalar?, scalar?, kind_eq_of_face h, text_eq_of_face h]

theorem literal?_eq_of_face (h : t'.face = t.face) : t'.literal? = t.literal? := by
  rw [literal?, literal?, kind_eq_of_face h, text_eq_of_face h, scalar?_eq_of_face h]

theorem IsName.of_face (h : t.IsName) (hface : t'.face = t.face) : t'.IsName := by
  rwa [IsName, kind_eq_of_face hface, text_eq_of_face hface]

theorem Opens.of_face {mark : String} (h : t.Opens mark) (hface : t'.face = t.face) :
    t'.Opens mark := by
  rwa [Opens, kind_eq_of_face hface, text_eq_of_face hface]

end Token

namespace Grammar

/-- **Resemblance.** Tokens `taken` up to a place, and `taken'` up to another one, in two lists
within the bound: they have the same faces, and so has the token that comes next. -/
structure Resembles (k : Nat) (taken rest taken' rest' : List Token) : Prop where
  fits : (taken ++ rest).length ≤ k
  fits' : (taken' ++ rest').length ≤ k
  faces : taken'.map Token.face = taken.map Token.face
  next : (rest'.map Token.face).head? = (rest.map Token.face).head?

namespace Resembles

variable {k : Nat} {taken rest taken' rest' : List Token}

theorem mono {j : Nat} (h : Resembles j taken rest taken' rest') (hjk : j ≤ k) :
    Resembles k taken rest taken' rest' :=
  ⟨Nat.le_trans h.fits hjk, Nat.le_trans h.fits' hjk, h.faces, h.next⟩

/-- Tokens taken in two turns, of which the first takes as many as the bounds differ. -/
theorem split {j : Nat} {s t ts' : List Token} (h : Resembles k (s ++ t) rest ts' rest')
    (hj : k ≤ j + s.length) :
    ∃ s' t', ts' = s' ++ t' ∧ Resembles k s (t ++ rest) s' (t' ++ rest') ∧
      Resembles j t rest t' rest' := by
  have hfaces := h.faces
  rw [List.map_append, List.map_eq_append_iff] at hfaces
  obtain ⟨s', t', rfl, hs, ht⟩ := hfaces
  have hlength : s'.length = s.length := by simpa using congrArg List.length hs
  have hfits := h.fits
  have hfits' := h.fits'
  simp only [List.length_append] at hfits hfits'
  refine ⟨s', t', rfl, ⟨?_, ?_, hs, ?_⟩, ⟨?_, ?_, ht, h.next⟩⟩
  · simp only [List.length_append]; omega
  · simp only [List.length_append]; omega
  · simp [ht, h.next, List.head?_append]
  · simp only [List.length_append]; omega
  · simp only [List.length_append]; omega

theorem uncons {t : Token} {ts : List Token} (h : Resembles (k + 1) (t :: ts) rest taken' rest') :
    ∃ t' ts', taken' = t' :: ts' ∧ t'.face = t.face ∧ Resembles k ts rest ts' rest' := by
  obtain ⟨s', ts', rfl, hfirst, hothers⟩ := split (s := [t]) (j := k) h (Nat.le_refl _)
  obtain ⟨t', rfl, hface⟩ := List.map_eq_singleton_iff.mp hfirst.faces
  exact ⟨t', ts', rfl, hface, hothers⟩

theorem eq_nil (h : Resembles 0 taken rest taken' rest') :
    taken = [] ∧ rest = [] ∧ taken' = [] ∧ rest' = [] := by
  have hfits := h.fits
  have hfits' := h.fits'
  simp only [Nat.le_zero_eq, List.length_eq_zero_iff, List.append_eq_nil_iff] at hfits hfits'
  exact ⟨hfits.1, hfits.2, hfits'.1, hfits'.2⟩

/-- At the start of two lists, either both are over or they begin with the same face. -/
theorem cases_rest (h : Resembles k [] rest taken' rest') :
    taken' = [] ∧ ((rest = [] ∧ rest' = []) ∨
      ∃ t ts t' ts', rest = t :: ts ∧ rest' = t' :: ts' ∧ t'.face = t.face) := by
  refine ⟨by simpa using h.faces, ?_⟩
  have hnext := h.next
  cases rest <;> cases rest' <;> simp_all

end Resembles

open Reader

/-! ## §2 Reading phrases -/

/-- **Reading phrases** within a bound, by two readers.  A phrase may be followed by what `F`
allows. -/
structure Reader.Reads {α β : Type} (k : Nat) (view : α → β) (x y : Reader α)
    (P : α → List Token → Prop) (F : List Token → Prop) : Prop extends x.Takes P where
  again : ∀ {taken rest a taken' rest'}, x (taken ++ rest) = .ok (a, rest) →
    Resembles k taken rest taken' rest' →
    ∃ a', y (taken' ++ rest') = .ok (a', rest') ∧ view a' = view a
  again_error : ∀ {taken rest reason taken' rest'},
    x (taken ++ rest) = .error ⟨rest, reason⟩ → Resembles k taken rest taken' rest' →
    y (taken' ++ rest') = .error ⟨rest', reason⟩
  complete : ∀ {a taken rest}, P a taken → F rest → (taken ++ rest).length ≤ k →
    x (taken ++ rest) = .ok (a, rest)

/-- Faces decide a test of the first token. -/
structure Reader.FaceTest (test : List Token → Bool) (opens : Token → Bool) : Prop
    extends HeadTest test opens where
  face : ∀ {t t'}, t'.face = t.face → opens t' = opens t

theorem Reader.FaceTest.eq_of_resembles {test : List Token → Bool} {opens : Token → Bool}
    (h : FaceTest test opens) {k : Nat} {taken rest taken' rest' : List Token}
    (hr : Resembles k taken rest taken' rest') :
    test (taken' ++ rest') = test (taken ++ rest) := by
  have hfaces := hr.faces
  cases taken with
  | nil =>
      obtain ⟨rfl, ⟨rfl, rfl⟩ | ⟨t, ts, t', ts', rfl, rfl, ht⟩⟩ := hr.cases_rest
      · rfl
      · rw [List.nil_append, List.nil_append, h.cons, h.cons, h.face ht]
  | cons t ts =>
      cases taken' with
      | nil => cases hfaces
      | cons t' ts' =>
          have ht : t'.face = t.face := (List.cons.inj hfaces).1
          rw [List.cons_append, List.cons_append, h.cons, h.cons, h.face ht]

theorem faceTest_startsWith (word : String) : FaceTest (startsWith word) (·.spells word) where
  toHeadTest := headTest_startsWith word
  face h := Token.spells_eq_of_face h word

theorem any_spells_eq_of_face {t t' : Token} (h : t'.face = t.face) (words : List String) :
    words.any t'.spells = words.any t.spells := by
  congr 1
  funext word
  exact Token.spells_eq_of_face h word

theorem faceTest_startsWithAny (words : List String) :
    FaceTest (startsWithAny words) fun t => words.any t.spells where
  toHeadTest := headTest_startsWithAny words
  face h := any_spells_eq_of_face h words

theorem faceTest_inBlock : FaceTest inBlock beginsStatement where
  toHeadTest := headTest_inBlock
  face h := by rw [beginsStatement, beginsStatement, any_spells_eq_of_face h]

namespace Reader.Reads

variable {α β γ δ : Type} {k : Nat} {view : α → β} {x y : Reader α}
  {P : α → List Token → Prop} {F : List Token → Prop}

theorem mono {j : Nat} (h : Reads k view x y P F) (hj : j ≤ k) : Reads j view x y P F where
  toTakes := h.toTakes
  again hok hr := h.again hok (hr.mono hj)
  again_error herror hr := h.again_error herror (hr.mono hj)
  complete ha hF hk := h.complete ha hF (Nat.le_trans hk hj)

/-- Another way to say what is read.  Only phrases within the bound count. -/
theorem imp {P' : α → List Token → Prop} {F' : List Token → Prop}
    (h : Reads k view x y P F) (hP : ∀ a ts, P a ts → P' a ts)
    (hP' : ∀ a ts, ts.length ≤ k → P' a ts → P a ts) (hF : ∀ ts, F' ts → F ts) :
    Reads k view x y P' F' where
  toTakes := h.toTakes.imp hP
  again := h.again
  again_error := h.again_error
  complete {a taken rest} ha hF' hk := by
    have htaken : taken.length ≤ k := by
      rw [List.length_append] at hk
      omega
    exact h.complete (hP' a taken htaken ha) (hF rest hF') hk

theorem of_iff {P' : α → List Token → Prop} (h : Reads k view x y P F)
    (hP : ∀ a ts, P a ts ↔ P' a ts) : Reads k view x y P' F :=
  h.imp (fun a ts => (hP a ts).mp) (fun a ts _ => (hP a ts).mpr) fun _ => id

theorem follow {F' : List Token → Prop} (h : Reads k view x y P F) (hF : ∀ ts, F' ts → F ts) :
    Reads k view x y P F' :=
  h.imp (fun _ _ => id) (fun _ _ _ => id) hF

/-- Without any tokens, the second reader may be one of any bound. -/
theorem zero {z : Reader α} (h : Reads k view x y P F) (hz : z [] = y []) :
    Reads 0 view x z P F where
  toTakes := h.toTakes
  again hok hr := by
    have hy := h.again hok (hr.mono (Nat.zero_le k))
    obtain ⟨rfl, rfl, rfl, rfl⟩ := hr.eq_nil
    simpa only [List.append_nil, hz] using hy
  again_error herror hr := by
    have hy := h.again_error herror (hr.mono (Nat.zero_le k))
    obtain ⟨rfl, rfl, rfl, rfl⟩ := hr.eq_nil
    simpa only [List.append_nil, hz] using hy
  complete ha hF hk := h.complete ha hF (Nat.le_trans hk (Nat.zero_le k))

/-- Without any tokens, it is as well to refuse as to look for a phrase that has some. -/
theorem refuse {z : Reader α} {reason : Reason} (hz : z [] = .error ⟨[], reason⟩)
    (hP : ∃ a ts, P a ts) (hnil : ∀ a, ¬ P a []) :
    Reads 0 view (Reader.refuse reason) z P F where
  toTakes := Takes.refuse hP
  again hok _ := nomatch hok
  again_error herror hr := by
    obtain ⟨rfl, rfl, rfl, rfl⟩ := hr.eq_nil
    cases herror
    exact hz
  complete {a taken rest} ha _ hk := by
    -- There is room for no phrase.
    obtain rfl : taken = [] := by
      rw [List.length_append] at hk
      exact List.eq_nil_of_length_eq_zero (by omega)
    exact absurd ha (hnil a)

theorem pure (view : α → β) (a a' : α) (h : view a' = view a) :
    Reads k view (Pure.pure a) (Pure.pure a') (fun b ts => b = a ∧ ts = []) fun _ => True where
  toTakes := Takes.pure a
  again {taken rest b taken' rest'} hok hr := by
    injection hok with hok
    obtain ⟨rfl, hrest⟩ := Prod.mk.inj hok
    obtain rfl : taken = [] := by simpa using hrest
    obtain ⟨rfl, -⟩ := hr.cases_rest
    exact ⟨a', rfl, h⟩
  again_error herror _ := nomatch herror
  complete := by
    rintro b _ rest ⟨rfl, rfl⟩ _ _
    rfl

/-- Where the first reader stops, so does the second one, and what comes then resembles each other
within a bound that need not count the phrase. -/
theorem advance {j : Nat} {taken mid rest taken' rest' : List Token} {a : α}
    (hx : Reads k view x y P F) (hj : ∀ a ts, P a ts → k ≤ j + ts.length)
    (h : x (taken ++ rest) = .ok (a, mid ++ rest)) (hr : Resembles k taken rest taken' rest') :
    ∃ a' mid', y (taken' ++ rest') = .ok (a', mid' ++ rest') ∧ view a' = view a ∧
      Resembles j mid rest mid' rest' := by
  obtain ⟨s, hs, ha⟩ := hx.ok h
  obtain rfl : taken = s ++ mid := by simpa [← List.append_assoc] using hs
  obtain ⟨s', mid', rfl, hphrase, hmid⟩ := hr.split (hj a s ha)
  rw [List.append_assoc] at h ⊢
  obtain ⟨a', hy, hview⟩ := hx.again h hphrase
  exact ⟨a', mid', hy, hview, hmid⟩

/-- Two phrases in a row.  The first takes at least as many tokens as the bounds differ. -/
theorem bind {j : Nat} {view' : γ → δ} {f g : α → Reader γ} {Q : α → γ → List Token → Prop}
    {G : List Token → Prop} (hx : Reads k view x y P F)
    (hf : ∀ a a', view a' = view a → Reads j view' (f a) (g a') (Q a) G)
    (hj : ∀ a ts, P a ts → k ≤ j + ts.length)
    (hF : ∀ a b ts rest, Q a b ts → G rest → F (ts ++ rest)) :
    Reads k view' (x >>= f) (y >>= g) (Then P Q) G where
  toTakes := hx.toTakes.bind fun a => (hf a a rfl).toTakes
  again {taken rest b taken' rest'} h hr := by
    obtain ⟨a, mid, hxts, hfmid⟩ := exists_of_bind_ok h
    obtain ⟨t, rfl, -⟩ := (hf a a rfl).ok hfmid
    obtain ⟨a', mid', hy, hview, hmid⟩ := hx.advance hj hxts hr
    rw [bind_of_ok hy]
    exact (hf a a' hview).again hfmid hmid
  again_error {taken rest reason taken' rest'} h hr := by
    cases hxts : x (taken ++ rest) with
    | error r =>
        rw [bind_of_error hxts] at h
        cases h
        exact bind_of_error (hx.again_error hxts hr)
    | ok result =>
        obtain ⟨a, mid⟩ := result
        rw [bind_of_ok hxts] at h
        obtain ⟨t, _, _, rfl, -⟩ := (hf a a rfl).error h
        obtain ⟨a', mid', hy, hview, hmid⟩ := hx.advance hj hxts hr
        rw [bind_of_ok hy]
        exact (hf a a' hview).again_error h hmid
  complete := by
    rintro b _ rest ⟨a, s, t, rfl, ha, hb⟩ hG hk
    -- What the first phrase takes makes up for the smaller bound of the second one.
    have hk₂ : (t ++ rest).length ≤ j := by
      have := hj a s ha
      simp only [List.length_append] at hk ⊢
      omega
    rw [List.append_assoc] at hk ⊢
    rw [bind_of_ok (hx.complete ha (hF a b t rest hb hG) hk)]
    exact (hf a a rfl).complete hb hG hk₂

/-- Two phrases in a row, the first of which may be followed by anything. -/
theorem after {view' : γ → δ} {f g : α → Reader γ} {Q : α → γ → List Token → Prop}
    {G : List Token → Prop} (hx : Reads k view x y P fun _ => True)
    (hf : ∀ a a', view a' = view a → Reads k view' (f a) (g a') (Q a) G) :
    Reads k view' (x >>= f) (y >>= g) (Then P Q) G :=
  hx.bind hf (fun _ _ _ => Nat.le_add_right ..) fun _ _ _ _ _ _ => trivial

/-- A phrase from which something is made. -/
theorem map (hx : Reads k view x y P F) (view' : γ → δ) (f g : α → γ)
    (hfg : ∀ a a', view a' = view a → view' (g a') = view' (f a)) :
    Reads k view' (x >>= fun a => Pure.pure (f a)) (y >>= fun a => Pure.pure (g a))
      (fun b ts => ∃ a, b = f a ∧ P a ts) F := by
  refine (hx.bind (j := k) (fun a a' h => (pure view' _ _ (hfg a a' h)).follow fun _ _ => trivial)
    (fun _ _ _ => Nat.le_add_right ..) ?_).of_iff fun b ts => ?_
  · rintro a b _ rest ⟨-, rfl⟩ hF
    exact hF
  · constructor
    · rintro ⟨a, s, _, rfl, ha, rfl, rfl⟩
      exact ⟨a, rfl, by simpa using ha⟩
    · rintro ⟨a, rfl, ha⟩
      exact ⟨a, ts, [], by simp, ha, rfl, rfl⟩

/-- The first token decides how to go on, and its face decides that. -/
theorem first {choose choose' : Token → Except Reason (Reader α)} {reason : Reason}
    (hP : ∃ a ts, P a ts)
    (hok : ∀ t t' z, t'.face = t.face → choose t = .ok z → ∃ z', choose' t' = .ok z' ∧
      Reads k view z z' (fun a ts => P a (t :: ts)) F)
    (herror : ∀ t t' r, t'.face = t.face → choose t = .error r → choose' t' = .error r)
    (hchoose : ∀ a ts, P a ts → ∃ t rest z, ts = t :: rest ∧ choose t = .ok z) :
    Reads (k + 1) view (Reader.first choose reason) (Reader.first choose' reason) P F where
  toTakes := by
    refine Takes.first hP fun t z hz => ?_
    obtain ⟨_, -, h⟩ := hok t t z rfl hz
    exact h.toTakes
  again {taken rest a taken' rest'} h hr := by
    cases taken with
    | nil =>
        -- A phrase has a first token, so fewer are left.
        cases rest with
        | nil => cases h
        | cons t ts =>
            rw [List.nil_append, Reader.first] at h
            split at h
            · next z hz =>
                obtain ⟨_, -, hread⟩ := hok t t z rfl hz
                exact absurd (hread.length_le h) (Nat.not_succ_le_self _)
            · cases h
    | cons t ts =>
        obtain ⟨t', ts', rfl, hface, hothers⟩ := hr.uncons
        rw [List.cons_append, Reader.first] at h
        split at h
        · next z hz =>
            obtain ⟨z', hz', hread⟩ := hok t t' z hface hz
            simpa [Reader.first, hz'] using hread.again h hothers
        · cases h
  again_error {taken rest r taken' rest'} h hr := by
    cases taken with
    | nil =>
        obtain ⟨rfl, ⟨rfl, rfl⟩ | ⟨t, ts, t', ts', rfl, rfl, ht⟩⟩ := hr.cases_rest
        · cases h
          rfl
        · rw [List.nil_append, Reader.first] at h
          split at h
          · next z hz =>
              obtain ⟨_, -, hread⟩ := hok t t z rfl hz
              exact absurd (hread.length_le_of_error h) (Nat.not_succ_le_self _)
          · next hz =>
              cases h
              simp [Reader.first, herror t t' _ ht hz]
    | cons t ts =>
        obtain ⟨t', ts', rfl, hface, hothers⟩ := hr.uncons
        rw [List.cons_append, Reader.first] at h
        split at h
        · next z hz =>
            obtain ⟨z', hz', hread⟩ := hok t t' z hface hz
            simpa [Reader.first, hz'] using hread.again_error h hothers
        · -- A refusal at the first token leaves it where it is.
          injection h with h
          have := congrArg List.length (congrArg Refusal.rest h)
          simp at this
          omega
  complete {a taken rest} ha hF hk := by
    obtain ⟨t, ts, z, rfl, hz⟩ := hchoose a taken ha
    obtain ⟨_, -, hread⟩ := hok t t z rfl hz
    rw [List.cons_append, Reader.first, hz]
    exact hread.complete ha hF (by simpa using hk)

/-- The face of a token decides whether it tells something, and what is seen of that. -/
theorem single {tells : Token → Option α} {reason : Reason} (htells : ∃ t a, tells t = some a)
    (view : α → β) (hview : ∀ t t', t'.face = t.face → (tells t').map view = (tells t).map view) :
    Reads k view (Reader.single tells reason) (Reader.single tells reason)
      (fun a ts => ∃ t, ts = [t] ∧ tells t = some a) fun _ => True := by
  obtain ⟨t₀, a₀, h₀⟩ := htells
  refine mono (first (k := k) ⟨a₀, _, t₀, rfl, h₀⟩ ?_ ?_ ?_) (Nat.le_succ k)
  · intro t t' z hface hz
    have hmap := hview t t' hface
    cases ht : tells t with
    | none => simp [ht] at hz
    | some a =>
        rw [ht, Option.map_some, Option.map_eq_some_iff] at hmap
        obtain ⟨a', ht', ha⟩ := hmap
        rw [ht] at hz
        cases hz
        refine ⟨_, by rw [ht'], (pure view a a' ha).of_iff fun b ts => ?_⟩
        constructor
        · rintro ⟨rfl, rfl⟩
          exact ⟨t, rfl, ht⟩
        · rintro ⟨_, hts, hb⟩
          obtain ⟨rfl, rfl⟩ := List.cons.inj hts
          exact ⟨Option.some.inj (hb.symm.trans ht), rfl⟩
  · intro t t' r hface hz
    have hmap := hview t t' hface
    cases ht : tells t with
    | none =>
        rw [ht, Option.map_none, Option.map_eq_none_iff] at hmap
        rw [ht] at hz
        rw [hmap]
        exact hz
    | some a => simp [ht] at hz
  · rintro a _ ⟨t, rfl, ht⟩
    exact ⟨t, [], _, rfl, by rw [ht]⟩

theorem require (word : String) (reason : Reason) :
    Reads k (fun _ => ()) (Reader.require word reason) (Reader.require word reason) (Mark word)
      fun _ => True := by
  rw [require_eq_single]
  refine (single ⟨⟨.operator, word, 0⟩, 0, if_pos (Takes.spells_self word)⟩ _ ?_).of_iff ?_
  · intro t t' hface
    rw [Token.spells_eq_of_face hface]
    split <;> rfl
  · intro offset ts
    constructor
    · rintro ⟨t, rfl, ht⟩
      obtain ⟨hword, rfl⟩ : t.spells word ∧ t.offset = offset := by simpa using ht
      exact .mk hword
    · rintro ⟨hword⟩
      exact ⟨_, rfl, if_pos hword⟩

theorem expect (word : String) :
    Reads k (fun _ => ()) (Reader.expect word) (Reader.expect word) (Mark word) fun _ => True :=
  require word _

/-- A phrase after a mark. -/
theorem afterMark (hx : Reads k view x y P F) (word : String) :
    Reads k view (Reader.expect word >>= fun _ => x) (Reader.expect word >>= fun _ => y)
      (After word P) F := by
  refine ((expect word).after fun _ _ _ => hx).of_iff fun a ts => ?_
  constructor
  · rintro ⟨_, _, ts, rfl, ⟨hword⟩, ha⟩
    exact .mk hword ha
  · rintro ⟨hword, ha⟩
    exact ⟨_, [_], _, rfl, .mk hword, ha⟩

/-- A phrase up to a mark, and what comes then. -/
theorem upTo {view' : γ → δ} {f g : α → Reader γ} {Q : α → γ → List Token → Prop}
    {G : List Token → Prop} (hx : Reads k view x y P F) (word : String) (reason : Reason)
    (hF : ∀ t ts, t.spells word → F (t :: ts))
    (hf : ∀ a a', view a' = view a → Reads k view' (f a) (g a') (Q a) G) :
    Reads k view' (x >>= fun a => Reader.require word reason >>= fun _ => f a)
      (y >>= fun a => Reader.require word reason >>= fun _ => g a) (Then (Ended word P) Q) G := by
  refine (hx.bind (j := k) (fun a a' h => (require word reason).after fun _ _ _ => hf a a' h)
    (fun _ _ _ => Nat.le_add_right ..) ?_).of_iff fun b ts => ?_
  · rintro a b _ rest ⟨_, _, ts, rfl, ⟨hword⟩, -⟩ -
    exact hF _ _ hword
  · constructor
    · rintro ⟨a, s, _, rfl, ha, _, _, t, rfl, ⟨hword⟩, hb⟩
      exact ⟨a, s ++ [_], t, by simp, .mk ha hword, hb⟩
    · rintro ⟨a, _, t, rfl, ⟨ha, hword⟩, hb⟩
      exact ⟨a, _, _ :: t, by simp, ha, _, [_], t, rfl, .mk hword, hb⟩

/-- A phrase up to a mark. -/
theorem ended (hx : Reads k view x y P F) (word : String) (reason : Reason) (view' : γ → δ)
    (f g : α → γ) (hF : ∀ t ts, t.spells word → F (t :: ts))
    (hfg : ∀ a a', view a' = view a → view' (g a') = view' (f a)) :
    Reads k view' (x >>= fun a => Reader.require word reason >>= fun _ => Pure.pure (f a))
      (y >>= fun a => Reader.require word reason >>= fun _ => Pure.pure (g a))
      (fun b ts => ∃ a, b = f a ∧ Ended word P a ts) fun _ => True := by
  refine (hx.upTo word reason hF fun a a' h => pure view' _ _ (hfg a a' h)).of_iff fun b ts => ?_
  constructor
  · rintro ⟨a, s, _, rfl, ha, rfl, rfl⟩
    exact ⟨a, rfl, by simpa using ha⟩
  · rintro ⟨a, rfl, ha⟩
    exact ⟨a, ts, [], by simp, ha, rfl, rfl⟩

theorem identifier :
    Reads k id Reader.identifier Reader.identifier Name fun _ => True := by
  rw [identifier_eq_single]
  refine (single ⟨⟨.identifier, "x", 0⟩, "x", if_pos rfl⟩ id ?_).of_iff ?_
  · intro t t' hface
    rw [Token.kind_eq_of_face hface, Token.text_eq_of_face hface]
  · intro name ts
    constructor
    · rintro ⟨t, rfl, ht⟩
      obtain ⟨hkind, rfl⟩ : t.kind = .identifier ∧ t.text = name := by simpa using ht
      exact .mk hkind
    · rintro ⟨hkind⟩
      exact ⟨_, rfl, if_pos hkind⟩

/-! ## §3 Looking at the next token -/

/-- A branch on the next token, each for the phrases that pass or fail the test. -/
theorem ite {test : List Token → Bool} {opens : Token → Bool} (htest : FaceTest test opens)
    {z w : Reader α} {P₁ P₂ : α → List Token → Prop} (hx : Reads k view x y P₁ F)
    (hz : Reads k view z w P₂ F) (hnil : ∀ a, ¬ P₁ a []) (hP : ∃ a ts, P a ts)
    (h₁ : ∀ a ts, test ts = true → (P₁ a ts ↔ P a ts))
    (h₂ : ∀ a ts, test ts = false → (P₂ a ts ↔ P a ts))
    (hF : ∀ a ts, P a [] → F ts → test ts = false) :
    Reads k view (fun ts => if test ts then x ts else z ts)
      (fun ts => if test ts then y ts else w ts) P F where
  toTakes := Takes.ite htest.toHeadTest hx.toTakes hz.toTakes hnil hP
    (fun a ts ha ht => (h₁ a ts ht).mp ha) fun a ts ha ht => (h₂ a ts ht).mp ha
  again {taken rest a taken' rest'} h hr := by
    rw [htest.eq_of_resembles hr]
    split at h
    · next ht => simpa [ht] using hx.again h hr
    · next ht => simpa [ht] using hz.again h hr
  again_error {taken rest reason taken' rest'} h hr := by
    rw [htest.eq_of_resembles hr]
    split at h
    · next ht => simpa [ht] using hx.again_error h hr
    · next ht => simpa [ht] using hz.again_error h hr
  complete {a taken rest} ha hrest hk := by
    -- The test sees the first token of the phrase or, if that has none, of what comes next.
    cases htaken : test taken with
    | true =>
        have ht : test (taken ++ rest) = true := by
          cases taken with
          | nil => exact absurd (htest.nil.symm.trans htaken) Bool.false_ne_true
          | cons t taken => exact (htest.cons_eq _ _).trans htaken
        rw [if_pos ht]
        exact hx.complete ((h₁ a taken htaken).mpr ha) hrest hk
    | false =>
        have ht : test (taken ++ rest) = false := by
          cases taken with
          | nil => exact hF a rest ha hrest
          | cons t taken => exact (htest.cons_eq _ _).trans htaken
        rw [if_neg (by simp [ht])]
        exact hz.complete ((h₂ a taken htaken).mpr ha) hrest hk

/-- One branch after the word, another one if something else comes next. -/
theorem accept_ite (word : String) {z w : Reader α} {Q : α → List Token → Prop}
    (hx : Reads k view x y P F) (hz : Reads k view z w Q F)
    (hF : ∀ a ts, Q a [] → F ts → startsWith word ts = false) :
    Reads k view (Reader.accept word >>= fun found => if found = true then x else z)
      (Reader.accept word >>= fun found => if found = true then y else w)
      (fun a ts => After word P a ts ∨ (Q a ts ∧ startsWith word ts = false)) F := by
  have hafter := hx.afterMark word
  obtain ⟨b, s, hb⟩ := hafter.inhabited
  rw [accept_bind_ite, accept_bind_ite]
  refine ite (faceTest_startsWith word) hafter hz (fun _ h => nomatch h) ⟨b, s, .inl hb⟩ ?_ ?_ ?_
  · intro a ts ht
    simp [ht]
  · intro a ts ht
    have hnot : ¬ After word P a ts := by
      rintro ⟨hword, -⟩
      exact Bool.false_ne_true (ht.symm.trans hword)
    simp [ht, hnot]
  · rintro a ts (ha | ⟨ha, -⟩) hts
    · cases ha
    · exact hF a ts ha hts

/-! ## §4 Repetition -/

/-- One round.  It takes a token, so the rest may have a bound that does not count this. -/
theorem round {more : List Token → Bool} {opens : Token → Bool} (hmore : FaceTest more opens)
    (hP : ∀ a, ¬ P a []) (hF : ∀ t ts, opens t → F (t :: ts)) {bound bound' : Nat}
    (hx : Reads k view x y P F)
    (hrest : Reads (k - 1) (List.map view) (Reader.repeatWhile more x bound)
      (Reader.repeatWhile more y bound') (Many opens P) fun ts => more ts = false ∧ F ts) :
    Reads k (List.map view) (Reader.repeatWhile more x (bound + 1))
      (Reader.repeatWhile more y (bound' + 1)) (Many opens P)
      fun ts => more ts = false ∧ F ts := by
  have hitem := hx.bind (fun a a' ha => hrest.map (List.map view) (a :: ·) (a' :: ·)
    fun as as' has => by simp [ha, has]) ?_ ?_
  · refine ite hmore hitem ((pure (List.map view) [] [] rfl).follow fun _ _ => trivial) ?_
      ⟨[], [], .nil⟩ (fun as ts ht => hmore.many_iff hP ht) (fun as ts ht => hmore.nil_iff ht)
      fun as ts _ hts => hts.1
    rintro _ ⟨a, s, _, hs, ha, -⟩
    obtain ⟨rfl, -⟩ := List.nil_eq_append_iff.mp hs
    exact hP a ha
  · intro a s ha
    cases s with
    | nil => exact absurd ha (hP a)
    | cons t s => simp only [List.length_cons]; omega
  · rintro a _ s rest ⟨as, rfl, has⟩ hrest
    exact has.follow hF hrest.2

/-- Phrases one after another.  What may follow the last of them does not open one more; an opening
token may follow any other. -/
theorem repeatWhile {more : List Token → Bool} {opens : Token → Bool} (hmore : FaceTest more opens)
    (hP : ∀ a, ¬ P a []) (hF : ∀ t ts, opens t → F (t :: ts)) {bound bound' : Nat}
    (hx : Reads k view x y P F) (hk : k ≤ bound) (hk' : k ≤ bound') :
    Reads k (List.map view) (Reader.repeatWhile more x bound) (Reader.repeatWhile more y bound')
      (Many opens P) fun ts => more ts = false ∧ F ts := by
  have hnil : ∀ b, Reader.repeatWhile more y b [] = .ok ([], []) := fun b => by
    cases b <;> simp [Reader.repeatWhile, hmore.nil, Pure.pure]
  induction bound generalizing k bound' with
  | zero =>
      obtain rfl : k = 0 := Nat.le_zero.mp hk
      refine ((pure (k := 0) (List.map view) [] [] rfl).zero (hnil bound')).imp ?_ ?_
        fun _ _ => trivial
      · rintro _ _ ⟨rfl, rfl⟩
        exact .nil
      · intro as ts hts has
        cases has with
        | nil => exact ⟨rfl, rfl⟩
        | cons => cases hts
  | succ bound ih =>
      cases bound' with
      | zero =>
          -- There are no tokens, and then every bound is as good as this one.
          obtain rfl : k = 0 := Nat.le_zero.mp hk'
          have hround := round hmore hP hF hx (ih hx (Nat.zero_le bound) (Nat.zero_le bound))
          exact hround.zero (by rw [hnil, hnil])
      | succ bound' =>
          exact round hmore hP hF hx (ih (hx.mono (Nat.sub_le k 1)) (Nat.sub_le_of_le_add hk)
            (Nat.sub_le_of_le_add hk'))

/-- Phrases with a mark between them.  What may follow the last of them is not the mark, which may
follow any other. -/
theorem separated (hx : Reads k view x y P F) (mark : String)
    (hF : ∀ t ts, t.spells mark → F (t :: ts)) {bound bound' : Nat} (hk : k ≤ bound)
    (hk' : k ≤ bound') :
    Reads k (List.map view) (Reader.separated mark x bound) (Reader.separated mark y bound')
      (Joined mark P) fun ts => startsWith mark ts = false ∧ F ts := by
  have hothers := repeatWhile (faceTest_startsWith mark) (fun a h => nomatch h) hF
    (hx.afterMark mark) hk hk'
  refine (hx.bind (j := k) (fun a a' ha => hothers.map (List.map view) (a :: ·) (a' :: ·)
    fun as as' has => by simp [ha, has]) ?_ ?_).of_iff fun as ts => ?_
  · exact fun _ _ _ => Nat.le_add_right ..
  · rintro a _ s rest ⟨as, rfl, has⟩ hrest
    exact has.follow hF hrest.2
  · constructor
    · rintro ⟨a, s, t, rfl, ha, as, rfl, has⟩
      exact joined_iff.mpr ⟨s, t, rfl, ha, has⟩
    · intro has
      cases as with
      | nil => cases has
      | cons a as =>
          obtain ⟨s, t, rfl, ha, has⟩ := joined_iff.mp has
          exact ⟨a, s, t, rfl, ha, as, rfl, has⟩

end Reader.Reads

end Grammar

end DynImp
