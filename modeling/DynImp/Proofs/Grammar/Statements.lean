import DynImp.Proofs.Grammar.Expressions

/-!
# Reading statements

Every kind of statement is told by its first word (`ReadsBeyond`), and reads expressions and
blocks of statements that nest less deeply.
-/

namespace DynImp

namespace Grammar

open Reader

/-! ## §1 Telling phrases apart by their first word -/

theorem startsWithAny_eq_false_iff {words : List String} {ts : List Token} :
    startsWithAny words ts = false ↔ ∀ word ∈ words, startsWith word ts = false := by
  simp [startsWithAny]

theorem startsWithAny_append {words : List String} {ts : List Token} (hts : ts ≠ [])
    (us : List Token) : startsWithAny words (ts ++ us) = startsWithAny words ts := by
  obtain ⟨t, ts, rfl⟩ := List.exists_cons_of_ne_nil hts
  rfl

/-- **Reading the rest.** What is read are phrases of a kind, if none of the words comes first; if
one does, nothing is said. -/
def Reader.ReadsBeyond {α β : Type} (words : List String) (k : Nat) (view : α → β)
    (x y : Reader α) (P : α → List Token → Prop) (F : List Token → Prop) : Prop :=
  ∃ P', Reads k view x y P' F ∧
    ∀ a ts, (∀ word ∈ words, startsWith word ts = false) → (P' a ts ↔ P a ts)

namespace Reader.ReadsBeyond

variable {α β : Type} {k : Nat} {view : α → β} {x y z w : Reader α} {P : α → List Token → Prop}
  {F : List Token → Prop}

theorem reads (h : ReadsBeyond [] k view x y P F) : Reads k view x y P F := by
  obtain ⟨P', hx, hP'⟩ := h
  exact hx.of_iff fun a ts => hP' a ts fun _ hword => nomatch hword

/-- One word more that tells phrases of the kind. -/
theorem ifWord {word : String} {words : List String}
    (hx : Reads k view x y (fun a ts => P a ts ∧ startsWith word ts = true) F)
    (hz : ReadsBeyond (word :: words) k view z w P F) (hP : ∀ a, ¬ P a []) :
    ReadsBeyond words k view (fun ts => if startsWith word ts then x ts else z ts)
      (fun ts => if startsWith word ts then y ts else w ts) P F := by
  obtain ⟨P', hz, hP'⟩ := hz
  have hnil : ∀ a, ¬ P' a [] := fun a ha => hP a ((hP' a [] fun _ _ => rfl).mp ha)
  obtain ⟨b, us, hb⟩ := hx.inhabited
  refine ⟨fun a ts => (P a ts ∧ startsWith word ts = true) ∨ (P' a ts ∧ startsWith word ts = false),
    Reads.ite (faceTest_startsWith word) hx hz (fun a h => hP a h.1) ⟨b, us, .inl hb⟩ ?_ ?_ ?_, ?_⟩
  · exact fun a ts ht => by simp [ht]
  · exact fun a ts ht => by simp [ht]
  · rintro a ts (ha | ha) -
    · exact absurd ha.1 (hP a)
    · exact absurd ha.1 (hnil a)
  · intro a ts hts
    cases ht : startsWith word ts with
    | true => simp [ht]
    | false =>
        have hall : ∀ other ∈ word :: words, startsWith other ts = false := by
          intro other hother
          cases hother with
          | head => exact ht
          | tail _ hother => exact hts other hother
        simp [ht, hP' a ts hall]

end Reader.ReadsBeyond

/-! ## §2 Parts that may be left out -/

namespace Reader.Reads

variable {α β : Type} {k : Nat} {view : α → β} {x y : Reader α} {P : α → List Token → Prop}
  {F : List Token → Prop}

/-- A phrase after a mark, or neither. -/
theorem optional (hx : Reads k view x y P F) (word : String) :
    Reads k (Option.map view)
      (Reader.accept word >>= fun found =>
        if found = true then x >>= fun a => Pure.pure (some a) else Pure.pure none)
      (Reader.accept word >>= fun found =>
        if found = true then y >>= fun a => Pure.pure (some a) else Pure.pure none)
      (Optional (After word P)) fun ts => startsWith word ts = false ∧ F ts := by
  have hsome := hx.map (Option.map view) some some fun a a' h => congrArg some h
  have hnone := pure (k := k) (Option.map view) none none rfl
  refine ((hsome.follow fun ts h => h.2).accept_ite word (hnone.follow fun _ _ => trivial)
    fun _ _ _ h => h.1).of_iff fun a ts => ?_
  constructor
  · rintro (⟨hword, a, rfl, ha⟩ | ⟨⟨rfl, rfl⟩, -⟩)
    · exact .some (.mk hword ha)
    · exact .none
  · intro h
    cases h with
    | none => exact .inr ⟨⟨rfl, rfl⟩, rfl⟩
    | some ha =>
        cases ha with
        | mk hword ha => exact .inl (.mk hword ⟨_, rfl, ha⟩)

/-- Phrases after a mark, or neither. -/
theorem tail {x y : Reader (List α)} {P : List α → List Token → Prop}
    (hx : Reads k (List.map view) x y P F) (word : String) :
    Reads k (List.map view)
      (Reader.accept word >>= fun found => if found = true then x else Pure.pure [])
      (Reader.accept word >>= fun found => if found = true then y else Pure.pure [])
      (Tail word P) fun ts => startsWith word ts = false ∧ F ts := by
  have hnone := pure (k := k) (List.map view) [] [] rfl
  refine ((hx.follow fun ts h => h.2).accept_ite word (hnone.follow fun _ _ => trivial)
    fun _ _ _ h => h.1).of_iff fun a ts => ?_
  constructor
  · rintro (⟨hword, ha⟩ | ⟨⟨rfl, rfl⟩, -⟩)
    · exact .some hword ha
    · exact .none
  · intro h
    cases h with
    | none => exact .inr ⟨⟨rfl, rfl⟩, rfl⟩
    | some hword ha => exact .inl (.mk hword ha)

theorem typeName : Reads k (Option.map id) Grammar.typeName Grammar.typeName TypePhrase
    fun ts => startsWith ":" ts = false :=
  (identifier.optional ":").follow fun _ h => ⟨h, trivial⟩

theorem initialValue {x y : Reader (Expr Bare)}
    (hx : Reads k Expr.unplaced x y Expr.Spans (Follows 0)) :
    Reads k (Option.map Expr.unplaced) (Grammar.initialValue x) (Grammar.initialValue y)
      InitialPhrase fun ts => startsWith "=" ts = false ∧ Follows 0 ts :=
  hx.optional "="

end Reader.Reads

/-- A written type that is left out, or after its colon, is followed by what begins with no
colon. -/
theorem startsWith_initialPhrase {value : Option (Expr Bare)} {vs : List Token}
    (h : InitialPhrase value vs) {t : Token} (ht : t.spells ";") (ts : List Token) :
    startsWith ":" (vs ++ [t] ++ ts) = false := by
  cases h with
  | none => exact spells_eq_false ht (by decide)
  | some h =>
      cases h with
      | mk hequals => exact spells_eq_false hequals (by decide)

theorem inBlock_eq_false {word : String} (hword : word ∈ blockEnds) {t : Token}
    (ht : t.spells word) (ts : List Token) : inBlock (t :: ts) = false := by
  rw [headTest_inBlock.cons, beginsStatement, Bool.not_eq_false']
  exact List.any_eq_true.mpr ⟨word, hword, ht⟩

/-- Branches that go on alike are left at once. -/
theorem accept_bind_ite_bind {α β : Type} (word : String) (x y : Reader α) (f : α → Reader β) :
    (accept word >>= fun found => if found = true then x >>= f else y >>= f) =
      ((accept word >>= fun found => if found = true then x else y) >>= f) := by
  funext ts
  rw [bind_apply, bind_apply, bind_apply]
  cases accept word ts with
  | error r => rfl
  | ok result =>
      obtain ⟨found, rest⟩ := result
      cases found <;> rfl

theorem choice_eq (expr : Reader (Expr Bare)) (block : Reader (List (Stmt Bare))) :
    choice expr block =
      expect "IF" >>= fun _ => expr >>= fun condition => expect "DO" >>= fun _ =>
        block >>= fun yes =>
          (accept "ELSE" >>= fun found => if found = true then block else pure []) >>= fun no =>
            expect "END" >>= fun _ => pure (.choose condition yes no) := by
  simp only [choice, accept_bind_ite_bind]

/-! ## §3 The kinds of statements -/

/-- The word that tells a statement. -/
def wordOf? : Stmt Bare → Option String
  | .declare .. => some "LET"
  | .choose .. => some "IF"
  | .switch .. => some "SWITCH"
  | .loop .. => some "WHILE"
  | .giveBack .. => some "RETURN"
  | .perform .. | .assign .. => none

theorem StmtSpans.ne_nil {s : Stmt Bare} {ts : List Token} (h : StmtSpans s ts) : ts ≠ [] := by
  cases h <;> simp

/-- A statement that begins with one of the words is the one that the word tells. -/
theorem StmtSpans.wordOf?_eq {s : Stmt Bare} {ts : List Token} {word : String}
    (h : StmtSpans s ts) (hword : word ∈ statementWords) (hts : startsWith word ts = true) :
    wordOf? s = some word := by
  have hother : ∀ {t : Token} {other : String} {us : List Token}, t.spells other →
      startsWith word (t :: us) = true → some other = some word := fun ht hts =>
    congrArg some ((text_of_spells ht).symm.trans (text_of_spells hts))
  have hnone : ∀ {us vs : List Token}, us ≠ [] → startsWithAny statementWords us = false →
      startsWith word (us ++ vs) = true → False := fun hne hany hts => by
    rw [startsWith_append hne, startsWithAny_eq_false_iff.mp hany word hword] at hts
    cases hts
  cases h with
  | perform hany he => exact (hnone he.ne_nil hany hts).elim
  | assign hany he => exact (hnone he.ne_nil hany hts).elim
  | declare ht | choose ht | switch ht | loop ht | giveBack ht => exact hother ht hts

/-- Statements that no word tells: an expression for its effect, or an assignment. -/
inductive SimpleSpans : Stmt Bare → List Token → Prop where
  | perform {e ts semi} : e.Spans ts → semi.spells ";" → SimpleSpans (.perform e) (ts ++ [semi])
  | assign {receiver ts equals value vs semi} : receiver.Spans ts → equals.spells "=" →
      value.Spans vs → semi.spells ";" →
      SimpleSpans (.assign receiver value) (ts ++ equals :: (vs ++ [semi]))

theorem simpleSpans_iff {s : Stmt Bare} {ts : List Token}
    (hts : startsWithAny statementWords ts = false) : SimpleSpans s ts ↔ StmtSpans s ts := by
  constructor
  · intro h
    cases h with
    | perform he hsemi => exact .perform (startsWithAny_append he.ne_nil _ ▸ hts) he hsemi
    | assign he hequals hvalue hsemi =>
        exact .assign (startsWithAny_append he.ne_nil _ ▸ hts) he hequals hvalue hsemi
  · intro h
    have htold : ∀ {t : Token} {word : String} {us : List Token}, word ∈ statementWords →
        startsWithAny statementWords (t :: us) = false → t.spells word → False :=
      fun hword hus ht =>
        Bool.false_ne_true ((startsWithAny_eq_false_iff.mp hus _ hword).symm.trans ht)
    cases h with
    | perform _ he hsemi => exact .perform he hsemi
    | assign _ he hequals hvalue hsemi => exact .assign he hequals hvalue hsemi
    | declare ht | choose ht | switch ht | loop ht | giveBack ht =>
        exact (htold (by decide) hts ht).elim

namespace Reader.Reads

variable {γ δ : Type} {k bound bound' : Nat} {x y : Reader (Expr Bare)}
  {b c : Reader (List (Stmt Bare))}

/-- A keyword, after which the bounds need not count it. -/
theorem keyword {view : γ → δ} {f g : Nat → Reader γ} {Q : Nat → γ → List Token → Prop}
    {G : List Token → Prop} (word : String)
    (hf : ∀ o o', Reads (k - 1) view (f o) (g o') (Q o) G) :
    Reads k view (Reader.expect word >>= f) (Reader.expect word >>= g) (Then (Mark word) Q) G := by
  refine (expect word).bind (fun o o' _ => hf o o') ?_ fun _ _ _ _ _ _ => trivial
  rintro _ _ ⟨-⟩
  simp only [List.length_singleton]
  omega

/-- An expression up to one of the words that close it. -/
theorem upToWord {view : γ → δ} {f g : Expr Bare → Reader γ} {Q : Expr Bare → γ → List Token → Prop}
    {G : List Token → Prop} (hx : Reads k Expr.unplaced x y Expr.Spans (Follows 0)) (word : String)
    (hword : word ∈ closers)
    (hf : ∀ e e', e'.unplaced = e.unplaced → Reads k view (f e) (g e') (Q e) G) :
    Reads k view (x >>= fun e => Reader.expect word >>= fun _ => f e)
      (y >>= fun e => Reader.expect word >>= fun _ => g e) (Then (Ended word Expr.Spans) Q) G :=
  hx.upTo word _ (fun _ ts ht => follows_of_closer hword ht 0 ts) hf

/-- An expression up to one of the words that close it, and what is made of it. -/
theorem endedByWord (hx : Reads k Expr.unplaced x y Expr.Spans (Follows 0)) (word : String)
    (hword : word ∈ closers) (view : γ → δ) (f g : Expr Bare → γ)
    (hfg : ∀ e e', e'.unplaced = e.unplaced → view (g e') = view (f e)) :
    Reads k view (x >>= fun e => Reader.expect word >>= fun _ => Pure.pure (f e))
      (y >>= fun e => Reader.expect word >>= fun _ => Pure.pure (g e))
      (fun a ts => ∃ e, a = f e ∧ Ended word Expr.Spans e ts) fun _ => True :=
  hx.ended word _ view f g (fun _ ts ht => follows_of_closer hword ht 0 ts) hfg

/-- A block up to its `END`, and what is made of it. -/
theorem endedBlock
    (hb : Reads k (List.map Stmt.unplaced) b c (Many beginsStatement StmtSpans)
      fun ts => inBlock ts = false) (view : γ → δ) (f g : List (Stmt Bare) → γ)
    (hfg : ∀ body body', body'.map Stmt.unplaced = body.map Stmt.unplaced →
      view (g body') = view (f body)) :
    Reads k view (b >>= fun body => Reader.expect "END" >>= fun _ => Pure.pure (f body))
      (c >>= fun body => Reader.expect "END" >>= fun _ => Pure.pure (g body))
      (fun a ts => ∃ body, a = f body ∧ Ended "END" (Many beginsStatement StmtSpans) body ts)
      fun _ => True :=
  hb.ended "END" _ view f g (fun _ ts ht => inBlock_eq_false (by decide) ht ts) hfg

/-- `LET`. -/
theorem declaration (hx : Reads k Expr.unplaced x y Expr.Spans (Follows 0)) :
    Reads k Stmt.unplaced (Grammar.declaration x) (Grammar.declaration y)
      (fun s ts => StmtSpans s ts ∧ startsWith "LET" ts = true) fun _ => True := by
  have hread := (expect (k := k) "LET").after fun offset offset' _ =>
    identifier.after fun name name' hname =>
      typeName.bind (j := k) (fun type type' htype =>
        hx.initialValue.ended ";" (.expected ";") Stmt.unplaced
          (fun value => .declare offset () name type value)
          (fun value => .declare offset' () name' type' value)
          (fun t ts ht => ⟨spells_eq_false ht (by decide), follows_of_closer (by decide) ht 0 ts⟩)
          ?_) (fun _ _ _ => Nat.le_add_right ..) ?_
  · refine hread.of_iff fun s ts => ?_
    constructor
    · rintro ⟨_, _, _, rfl, ⟨hword⟩, _, _, _, rfl, ⟨hname⟩, type, ts, _, rfl, htype, value, rfl,
        ⟨hvalue, hsemi⟩⟩
      exact ⟨.declare hword hname htype hvalue hsemi, hword⟩
    · rintro ⟨h, hts⟩
      have htold := h.wordOf?_eq (by decide) hts
      cases h with
      | declare hword hname htype hvalue hsemi =>
          exact ⟨_, [_], _, rfl, .mk hword, _, [_], _, rfl, .mk hname, _, _, _, rfl, htype, _, rfl,
            .mk hvalue hsemi⟩
      | _ => simp [wordOf?] at htold
  · rintro value value' hvalue
    obtain rfl : name' = name := hname
    obtain rfl : type' = type := by simpa using htype
    simp only [Stmt.unplaced, hvalue]
  · rintro type s ts rest ⟨value, -, ⟨hvalue, hsemi⟩⟩ -
    exact startsWith_initialPhrase hvalue hsemi rest

/-- `IF`. -/
theorem choice (hx : Reads k Expr.unplaced x y Expr.Spans (Follows 0))
    (hb : Reads (k - 1) (List.map Stmt.unplaced) b c (Many beginsStatement StmtSpans)
      fun ts => inBlock ts = false) :
    Reads k Stmt.unplaced (Grammar.choice x b) (Grammar.choice y c)
      (fun s ts => StmtSpans s ts ∧ startsWith "IF" ts = true) fun _ => True := by
  have hx' := hx.mono (Nat.sub_le k 1)
  have hread := keyword "IF" fun _ _ =>
    hx'.upToWord "DO" (by decide) fun condition condition' hcond =>
    hb.bind (j := k - 1) (fun yes yes' hyes =>
      (hb.tail "ELSE").ended "END" (.expected "END") Stmt.unplaced
        (fun no => .choose condition yes no) (fun no => .choose condition' yes' no)
        (fun t ts ht => ⟨spells_eq_false ht (by decide), inBlock_eq_false (by decide) ht ts⟩)
        ?_) (fun _ _ _ => Nat.le_add_right ..) ?_
  · rw [choice_eq, choice_eq]
    refine hread.of_iff fun s ts => ?_
    constructor
    · rintro ⟨_, _, _, rfl, ⟨hword⟩, condition, _, _, rfl, ⟨hcondition, hdo⟩, yes, ys, _, rfl, hyes,
        no, rfl, ⟨hno, hend⟩⟩
      refine ⟨?_, hword⟩
      simpa [List.append_assoc] using StmtSpans.choose hword hcondition hdo hyes hno hend
    · rintro ⟨h, hts⟩
      have htold := h.wordOf?_eq (by decide) hts
      cases h with
      | choose hword hcondition hdo hyes hno hend =>
          exact ⟨_, [_], _, rfl, .mk hword, _, _, _, by simp [List.append_assoc],
            .mk hcondition hdo, _, _, _, rfl, hyes, _, rfl, .mk hno hend⟩
      | _ => simp [wordOf?] at htold
  · rintro no no' hno
    simp only [Stmt.unplaced, Stmt.blockUnplaced_eq, hcond, hyes, hno]
  · rintro yes s ts rest ⟨no, -, ⟨hno, hend⟩⟩ -
    cases hno with
    | none => exact inBlock_eq_false (by decide) hend _
    | some helse => exact inBlock_eq_false (by decide) helse _

/-- `CASE`. -/
theorem valuedCase (hx : Reads k Expr.unplaced x y Expr.Spans (Follows 0))
    (hb : Reads k (List.map Stmt.unplaced) b c (Many beginsStatement StmtSpans)
      fun ts => inBlock ts = false) :
    Reads k Case.unplaced (Grammar.valuedCase x b) (Grammar.valuedCase y c) CaseSpans
      fun ts => inBlock ts = false := by
  have hread := (expect (k := k) "CASE").after fun offset offset' _ =>
    hx.upToWord ":" (by decide) fun value value' hvalue =>
      hb.map Case.unplaced (fun body => .mk offset (some value) body)
        (fun body => .mk offset' (some value') body) ?_
  · refine hread.of_iff fun s ts => ?_
    constructor
    · rintro ⟨_, _, _, rfl, ⟨hword⟩, value, _, _, rfl, ⟨hvalue, hcolon⟩, body, rfl, hbody⟩
      simpa [List.append_assoc] using CaseSpans.valued hword hvalue hcolon hbody
    · rintro ⟨hword, hvalue, hcolon, hbody⟩
      exact ⟨_, [_], _, rfl, .mk hword, _, _, _, by simp, .mk hvalue hcolon, _, rfl, hbody⟩
  · rintro body body' hbody
    simp only [Case.unplaced, Stmt.blockUnplaced_eq, Option.map_some, hvalue, hbody]

/-- `SWITCH`. -/
theorem switch (hx : Reads k Expr.unplaced x y Expr.Spans (Follows 0))
    (hb : Reads (k - 1) (List.map Stmt.unplaced) b c (Many beginsStatement StmtSpans)
      fun ts => inBlock ts = false) (hk : k - 1 ≤ bound) (hk' : k - 1 ≤ bound') :
    Reads k Stmt.unplaced (Grammar.switch bound x b) (Grammar.switch bound' y c)
      (fun s ts => StmtSpans s ts ∧ startsWith "SWITCH" ts = true) fun _ => True := by
  have hx' := hx.mono (Nat.sub_le k 1)
  have hcases := repeatWhile (faceTest_startsWith "CASE") (fun _ h => nomatch h)
    (fun t ts ht => inBlock_eq_false (by decide) ht ts) (hx'.valuedCase hb) hk hk'
  have hread := keyword "SWITCH" fun _ _ => hx'.bind (j := k - 1) (fun subject subject' hsubject =>
    hcases.bind (j := k - 1) (fun cases cases' hcases =>
      (require "DEFAULT" .missingDefault).after fun offset offset' _ =>
        hb.endedBlock Stmt.unplaced
          (fun body => .switch subject (cases ++ [.mk offset none body]))
          (fun body => .switch subject' (cases' ++ [.mk offset' none body])) ?_)
      (fun _ _ _ => Nat.le_add_right ..) ?_) (fun _ _ _ => Nat.le_add_right ..) ?_
  · refine hread.of_iff fun s ts => ?_
    constructor
    · rintro ⟨_, _, _, rfl, ⟨hword⟩, subject, _, _, rfl, hsubject, cases, _, _, rfl, hcases, _, _,
        _, rfl, ⟨hdefault⟩, body, rfl, ⟨hbody, hend⟩⟩
      exact ⟨.switch hword hsubject hcases hdefault hbody hend, hword⟩
    · rintro ⟨h, hts⟩
      have htold := h.wordOf?_eq (by decide) hts
      cases h with
      | switch hword hsubject hcases hdefault hbody hend =>
          exact ⟨_, [_], _, rfl, .mk hword, _, _, _, rfl, hsubject, _, _, _, rfl, hcases, _, [_], _,
            rfl, .mk hdefault, _, rfl, .mk hbody hend⟩
      | _ => simp [wordOf?] at htold
  · rintro body body' hbody
    simp only [Stmt.unplaced, Case.allUnplaced_eq, List.map_append, List.map_cons, List.map_nil,
      Case.unplaced, Option.map_none, Stmt.blockUnplaced_eq, hsubject, hcases, hbody]
  · rintro cases s ts rest ⟨_, _, _, rfl, ⟨hdefault⟩, -⟩ -
    exact ⟨spells_eq_false hdefault (by decide), inBlock_eq_false (by decide) hdefault _⟩
  · rintro subject s ts rest ⟨cases, _, _, rfl, hcases, _, _, _, rfl, ⟨hdefault⟩, -⟩ -
    cases hcases with
    | nil => exact follows_of_closer (by decide) hdefault 0 _
    | cons hcase => exact follows_of_closer (by decide) hcase 0 _

/-- `WHILE`. -/
theorem loop (hx : Reads k Expr.unplaced x y Expr.Spans (Follows 0))
    (hb : Reads (k - 1) (List.map Stmt.unplaced) b c (Many beginsStatement StmtSpans)
      fun ts => inBlock ts = false) :
    Reads k Stmt.unplaced (Grammar.loop x b) (Grammar.loop y c)
      (fun s ts => StmtSpans s ts ∧ startsWith "WHILE" ts = true) fun _ => True := by
  have hx' := hx.mono (Nat.sub_le k 1)
  have hread := keyword "WHILE" fun _ _ =>
    hx'.upToWord "DO" (by decide) fun condition condition' hcondition =>
      hb.endedBlock Stmt.unplaced (fun body => .loop condition body)
        (fun body => .loop condition' body) ?_
  · refine hread.of_iff fun s ts => ?_
    constructor
    · rintro ⟨_, _, _, rfl, ⟨hword⟩, condition, _, _, rfl, ⟨hcondition, hdo⟩, body, rfl,
        ⟨hbody, hend⟩⟩
      refine ⟨?_, hword⟩
      simpa [List.append_assoc] using StmtSpans.loop hword hcondition hdo hbody hend
    · rintro ⟨h, hts⟩
      have htold := h.wordOf?_eq (by decide) hts
      cases h with
      | loop hword hcondition hdo hbody hend =>
          exact ⟨_, [_], _, rfl, .mk hword, _, _, _, by simp, .mk hcondition hdo, _, rfl,
            .mk hbody hend⟩
      | _ => simp [wordOf?] at htold
  · rintro body body' hbody
    simp only [Stmt.unplaced, Stmt.blockUnplaced_eq, hcondition, hbody]

/-- `RETURN`. -/
theorem giveBack (hx : Reads k Expr.unplaced x y Expr.Spans (Follows 0)) :
    Reads k Stmt.unplaced (Grammar.giveBack x) (Grammar.giveBack y)
      (fun s ts => StmtSpans s ts ∧ startsWith "RETURN" ts = true) fun _ => True := by
  have hread := (expect (k := k) "RETURN").after fun _ _ _ =>
    hx.endedByWord ";" (by decide) Stmt.unplaced (fun value => .giveBack value)
      (fun value => .giveBack value) ?_
  · refine hread.of_iff fun s ts => ?_
    constructor
    · rintro ⟨_, _, _, rfl, ⟨hword⟩, value, rfl, ⟨hvalue, hsemi⟩⟩
      exact ⟨.giveBack hword hvalue hsemi, hword⟩
    · rintro ⟨h, hts⟩
      have htold := h.wordOf?_eq (by decide) hts
      cases h with
      | giveBack hword hvalue hsemi =>
          exact ⟨_, [_], _, rfl, .mk hword, _, rfl, .mk hvalue hsemi⟩
      | _ => simp [wordOf?] at htold
  · rintro value value' hvalue
    simp only [Stmt.unplaced, hvalue]

/-- An expression for its effect, or an assignment. -/
theorem simple (hx : Reads k Expr.unplaced x y Expr.Spans (Follows 0)) :
    Reads k Stmt.unplaced (Grammar.simple x) (Grammar.simple y) SimpleSpans fun _ => True := by
  have hread := hx.bind (j := k) (fun first first' hfirst =>
    (hx.endedByWord ";" (by decide) Stmt.unplaced (fun value => .assign first value)
      (fun value => .assign first' value) ?_).accept_ite "="
      ((pure (k := k) Stmt.unplaced (.perform first) (.perform first') ?_).afterMark ";") ?_)
    (fun _ _ _ => Nat.le_add_right ..) ?_
  · refine hread.of_iff fun s ts => ?_
    constructor
    · rintro ⟨e, us, _, rfl, he, ⟨hequals, value, rfl, ⟨hvalue, hsemi⟩⟩ | ⟨⟨hsemi, rfl, rfl⟩, -⟩⟩
      · exact .assign he hequals hvalue hsemi
      · exact .perform he hsemi
    · intro h
      cases h with
      | perform he hsemi =>
          exact ⟨_, _, _, rfl, he, .inr ⟨.mk hsemi ⟨rfl, rfl⟩, spells_eq_false hsemi (by decide)⟩⟩
      | assign he hequals hvalue hsemi =>
          exact ⟨_, _, _, rfl, he, .inl (.mk hequals ⟨_, rfl, .mk hvalue hsemi⟩)⟩
  · rintro value value' hvalue
    simp only [Stmt.unplaced, hfirst, hvalue]
  · simp only [Stmt.unplaced, hfirst]
  · exact fun _ _ h => nomatch h
  · rintro e s ts rest (⟨hequals, -⟩ | ⟨⟨hsemi, -⟩, -⟩) -
    · exact follows_of_closer (by decide) hequals 0 _
    · exact follows_of_closer (by decide) hsemi 0 _

/-- **Statements**, told by their first word. -/
theorem statementOf (hx : Reads k Expr.unplaced x y Expr.Spans (Follows 0))
    (hb : Reads (k - 1) (List.map Stmt.unplaced) b c (Many beginsStatement StmtSpans)
      fun ts => inBlock ts = false) (hk : k - 1 ≤ bound) (hk' : k - 1 ≤ bound') :
    Reads k Stmt.unplaced (Grammar.statementOf bound x b) (Grammar.statementOf bound' y c) StmtSpans
      fun _ => True := by
  have hP : ∀ s, ¬ StmtSpans s [] := fun s h => h.ne_nil rfl
  have hwords : ∀ word ∈ statementWords, word ∈ ["RETURN", "WHILE", "SWITCH", "IF", "LET"] := by
    decide
  have hsimple : ReadsBeyond ["RETURN", "WHILE", "SWITCH", "IF", "LET"] k Stmt.unplaced
      (Grammar.simple x) (Grammar.simple y) StmtSpans fun _ => True :=
    ⟨_, hx.simple, fun s ts hts => simpleSpans_iff <| startsWithAny_eq_false_iff.mpr
      fun word hword => hts word (hwords word hword)⟩
  have hreturn := ReadsBeyond.ifWord hx.giveBack hsimple hP
  have hwhile := ReadsBeyond.ifWord (hx.loop hb) hreturn hP
  have hswitch := ReadsBeyond.ifWord (hx.switch hb hk hk') hwhile hP
  have hif := ReadsBeyond.ifWord (hx.choice hb) hswitch hP
  exact (ReadsBeyond.ifWord hx.declaration hif hP).reads

/-- Statements in a row, up to a word that closes the block. -/
theorem statements {n m : Nat} {z w : Reader (Stmt Bare)}
    (hz : Reads k Stmt.unplaced z w StmtSpans fun _ => True) (hn : k ≤ n) (hm : k ≤ m) :
    Reads k (List.map Stmt.unplaced) (Reader.repeatWhile inBlock z n)
      (Reader.repeatWhile inBlock w m) (Many beginsStatement StmtSpans)
      fun ts => inBlock ts = false :=
  (repeatWhile faceTest_inBlock (fun _ h => h.ne_nil rfl) (fun _ _ _ => trivial) hz hn hm).follow
    fun _ h => ⟨h, trivial⟩

theorem statement {n m : Nat} (hn : k ≤ n - 1) (hm : k ≤ m - 1) :
    Reads k Stmt.unplaced (Grammar.statement n) (Grammar.statement m) StmtSpans fun _ => True := by
  have hnil : ∀ m, Grammar.statement m [] = .error ⟨[], .expectedExpression⟩ := fun m => by
    cases m with
    | zero => rfl
    | succ m => cases m <;> rfl
  have hP : ∀ s, ¬ StmtSpans s [] := fun s h => h.ne_nil rfl
  induction n generalizing k m with
  | zero =>
      obtain rfl : k = 0 := Nat.le_zero.mp hn
      have hliteral : Token.literal? ⟨.identifier, "NIL", 0⟩ = some .nil := by decide
      have hreturn := StmtSpans.giveBack (Takes.spells_self "RETURN") (.literal hliteral)
        (Takes.spells_self ";")
      exact refuse (hnil m) ⟨_, _, hreturn⟩ hP
  | succ n ih =>
      have hstep : ∀ {k m}, k ≤ n → k ≤ m → Reads k Stmt.unplaced (Grammar.statement (n + 1))
          (Grammar.statement (m + 1)) StmtSpans fun _ => True := by
        intro k m hn hm
        have hblock := (ih (k := k - 1) (m := m) (by omega) (by omega)).statements (n := n) (m := m)
          (by omega) (by omega)
        exact (expression hn hm).statementOf hblock (by omega) (by omega)
      cases m with
      | zero =>
          obtain rfl : k = 0 := Nat.le_zero.mp hm
          exact (hstep (m := n) (Nat.zero_le _) (Nat.zero_le _)).zero (by rw [hnil, hnil])
      | succ m => exact hstep hn hm

theorem block {n m : Nat} (hn : k ≤ n - 1) (hm : k ≤ m - 1) :
    Reads k (List.map Stmt.unplaced) (Grammar.block n) (Grammar.block m)
      (Many beginsStatement StmtSpans) fun ts => inBlock ts = false :=
  (statement hn hm).statements (by omega) (by omega)

end Reader.Reads

end Grammar

end DynImp
