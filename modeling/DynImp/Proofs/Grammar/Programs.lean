import DynImp.Proofs.Grammar.Statements

/-!
# Reading programs

Globals, each up to its semicolon, then functions, and nothing after them.
-/

namespace DynImp

namespace Grammar

open Reader

theorem not_startsWith_of_spells {t : Token} {word other : String} (h : t.spells word)
    (hne : word ≠ other) (ts : List Token) : ¬ startsWith other (t :: ts) = true := by
  rw [Bool.not_eq_true]
  exact spells_eq_false h hne

/-! ## §1 Globals -/

/-- Tokens that go on with no part of a global. -/
structure EndsGlobal (ts : List Token) : Prop where
  type : startsWith ":" ts = false
  value : startsWith "=" ts = false
  expr : Follows 0 ts

theorem endsGlobal_of_semicolon {t : Token} (h : t.spells ";") (ts : List Token) :
    EndsGlobal (t :: ts) :=
  ⟨spells_eq_false h (by decide), spells_eq_false h (by decide),
    follows_of_closer (by decide) h 0 ts⟩

theorem GlobalSpans.ne_nil {g : Global Bare} {ts : List Token} (h : GlobalSpans g ts) :
    ts ≠ [] := by
  cases h <;> simp

namespace Reader.Reads

variable {k bound bound' : Nat} {x y : Reader (Expr Bare)}

/-- `VAR`. -/
theorem varGlobal (hx : Reads k Expr.unplaced x y Expr.Spans (Follows 0)) :
    Reads k Global.unplaced (Grammar.varGlobal x) (Grammar.varGlobal y)
      (fun g ts => GlobalSpans g ts ∧ startsWith "VAR" ts = true) EndsGlobal := by
  have hread := (expect (k := k) "VAR").after fun offset offset' _ =>
    identifier.after fun name name' hname =>
      typeName.bind (j := k) (G := EndsGlobal) (fun type type' htype =>
        (hx.initialValue.map Global.unplaced
          (fun value => ⟨offset, (), name, type, true, false, value⟩)
          (fun value => ⟨offset', (), name', type', true, false, value⟩) ?_).follow ?_)
        (fun _ _ _ => Nat.le_add_right ..) ?_
  · refine hread.of_iff fun g ts => ?_
    constructor
    · rintro ⟨_, _, _, rfl, ⟨hword⟩, _, _, _, rfl, ⟨hname⟩, type, ts, _, rfl, htype, value, rfl,
        hvalue⟩
      have hspans := GlobalSpans.var hword hname htype hvalue
      exact ⟨hspans, hword⟩
    · rintro ⟨h, hts⟩
      cases h with
      | var hword hname htype hvalue =>
          exact ⟨_, [_], _, rfl, .mk hword, _, [_], _, rfl, .mk hname, _, _, _, rfl, htype, _, rfl,
            hvalue⟩
      | val hword | list hword => exact absurd hts (not_startsWith_of_spells hword (by decide) _)
  · rintro value value' hvalue
    obtain rfl : name' = name := hname
    obtain rfl : type' = type := by simpa using htype
    simp only [Global.unplaced, hvalue]
  · exact fun ts h => ⟨h.value, h.expr⟩
  · rintro type g vs rest ⟨value, -, hvalue⟩ hrest
    cases hvalue with
    | none => exact hrest.type
    | some h =>
        cases h with
        | mk hequals => exact spells_eq_false hequals (by decide)

/-- `VAL`. -/
theorem valGlobal (hx : Reads k Expr.unplaced x y Expr.Spans (Follows 0)) :
    Reads k Global.unplaced (Grammar.valGlobal x) (Grammar.valGlobal y)
      (fun g ts => GlobalSpans g ts ∧ startsWith "VAL" ts = true) EndsGlobal := by
  have hread := (expect (k := k) "VAL").after fun offset offset' _ =>
    identifier.after fun name name' hname =>
      typeName.upTo (G := EndsGlobal) "=" (.expected "=")
        (fun t ts ht => spells_eq_false ht (by decide)) fun type type' htype =>
        (hx.map Global.unplaced (fun value => ⟨offset, (), name, type, false, false, some value⟩)
          (fun value => ⟨offset', (), name', type', false, false, some value⟩) ?_).follow ?_
  · refine hread.of_iff fun g ts => ?_
    constructor
    · rintro ⟨_, _, _, rfl, ⟨hword⟩, _, _, _, rfl, ⟨hname⟩, type, _, _, rfl, ⟨htype, hequals⟩,
        value, rfl, hvalue⟩
      refine ⟨?_, hword⟩
      simpa [List.append_assoc] using GlobalSpans.val hword hname htype hequals hvalue
    · rintro ⟨h, hts⟩
      cases h with
      | val hword hname htype hequals hvalue =>
          exact ⟨_, [_], _, rfl, .mk hword, _, [_], _, rfl, .mk hname, _, _, _, by simp,
            .mk htype hequals, _, rfl, hvalue⟩
      | var hword | list hword => exact absurd hts (not_startsWith_of_spells hword (by decide) _)
  · rintro value value' hvalue
    obtain rfl : name' = name := hname
    obtain rfl : type' = type := by simpa using htype
    simp only [Global.unplaced, Option.map_some, hvalue]
  · exact fun ts h => h.expr

/-- `LIST`. -/
theorem listGlobal (hx : Reads k Expr.unplaced x y Expr.Spans (Follows 0)) (hk : k ≤ bound)
    (hk' : k ≤ bound') :
    Reads k Global.unplaced (Grammar.listGlobal bound x) (Grammar.listGlobal bound' y)
      (fun g ts => GlobalSpans g ts ∧ startsWith "LIST" ts = true) EndsGlobal := by
  have hread := (expect (k := k) "LIST").after fun offset offset' _ =>
    identifier.after fun name name' hname =>
      typeName.upTo (G := EndsGlobal) "=" (.expected "=")
        (fun t ts ht => spells_eq_false ht (by decide)) fun type type' htype =>
        (expect "[").after fun opening opening' _ =>
          ((hx.enumeration "]" (.expected "]") (.list opening ()) (.list opening' ()) hk hk'
            (by decide) (by decide) ?_).map Global.unplaced
            (fun value => ⟨offset, (), name, type, true, true, some value⟩)
            (fun value => ⟨offset', (), name', type', true, true, some value⟩) ?_).follow ?_
  · refine hread.of_iff fun g ts => ?_
    constructor
    · rintro ⟨_, _, _, rfl, ⟨hword⟩, _, _, _, rfl, ⟨hname⟩, type, _, _, rfl, ⟨htype, hequals⟩,
        _, _, _, rfl, ⟨hopening⟩, _, rfl, items, rfl, ⟨hitems, hclosing⟩⟩
      refine ⟨?_, hword⟩
      simpa [List.append_assoc] using
        GlobalSpans.list hword hname htype hequals hopening hitems hclosing
    · rintro ⟨h, hts⟩
      cases h with
      | list hword hname htype hequals hopening hitems hclosing =>
          exact ⟨_, [_], _, rfl, .mk hword, _, [_], _, rfl, .mk hname, _, _, _, by simp,
            .mk htype hequals, _, [_], _, rfl, .mk hopening, _, rfl, _, rfl, .mk hitems hclosing⟩
      | var hword | val hword => exact absurd hts (not_startsWith_of_spells hword (by decide) _)
  · rintro items items' hitems
    simp only [Expr.unplaced, Expr.allUnplaced_eq, hitems]
  · rintro value value' hvalue
    obtain rfl : name' = name := hname
    obtain rfl : type' = type := by simpa using htype
    simp only [Global.unplaced, Option.map_some, hvalue]
  · exact fun ts h => trivial

/-- **Globals**, each up to its semicolon. -/
theorem global {n m : Nat} (hn : k ≤ n) (hm : k ≤ m) :
    Reads k Global.unplaced (Grammar.global n) (Grammar.global m) (Ended ";" GlobalSpans)
      fun _ => True := by
  have hx := expression hn hm
  have hP : ∀ g, ¬ GlobalSpans g [] := fun g h => h.ne_nil rfl
  have hlist : ReadsBeyond ["VAL", "VAR"] k Global.unplaced
      (Grammar.listGlobal n (Grammar.expression n)) (Grammar.listGlobal m (Grammar.expression m))
      GlobalSpans EndsGlobal := by
    refine ⟨_, hx.listGlobal hn hm, fun g ts hts => ⟨fun h => h.1, fun h => ⟨h, ?_⟩⟩⟩
    cases h with
    | list hword => exact hword
    | val hword => exact absurd hword (Bool.not_eq_true _ ▸ hts "VAL" (by decide))
    | var hword => exact absurd hword (Bool.not_eq_true _ ▸ hts "VAR" (by decide))
  have hdeclared := (ReadsBeyond.ifWord hx.varGlobal (ReadsBeyond.ifWord hx.valGlobal hlist hP)
    hP).reads
  have hread := hdeclared.ended ";" (.expected ";") Global.unplaced id id
    (fun t ts ht => endsGlobal_of_semicolon ht ts) fun _ _ h => h
  exact hread.of_iff fun g ts => ⟨fun ⟨_, heq, h⟩ => heq ▸ h, fun h => ⟨g, rfl, h⟩⟩

end Reader.Reads

/-! ## §2 Functions -/

namespace Reader.Reads

variable {k : Nat}

theorem parameter : Reads k id Grammar.parameter Grammar.parameter ParameterSpans
    fun ts => startsWith ":" ts = false := by
  have hread := (identifier (k := k)).after fun name name' hname =>
    typeName.map id (fun type => (⟨name, type⟩ : Parameter)) (fun type => ⟨name', type⟩) ?_
  · refine hread.of_iff fun p ts => ?_
    constructor
    · rintro ⟨_, _, ts, rfl, ⟨hname⟩, type, rfl, htype⟩
      exact .mk hname htype
    · rintro ⟨hname, htype⟩
      exact ⟨_, [_], _, rfl, .mk hname, _, rfl, htype⟩
  · rintro type type' htype
    obtain rfl : name' = name := hname
    obtain rfl : type' = type := by simpa using htype
    rfl

theorem parameters {n m : Nat} (hn : k ≤ n) (hm : k ≤ m) :
    Reads k id (Grammar.parameters n) (Grammar.parameters m) ParametersSpan fun _ => True := by
  have hsome := (parameter.separated "," (fun t ts ht => spells_eq_false ht (by decide)) hn
    hm).ended ")" (.expected ")") id id id
    (fun t ts ht => ⟨spells_eq_false ht (by decide), spells_eq_false ht (by decide)⟩)
    fun ps ps' h => by simpa using h
  refine ((pure (k := k) id [] [] rfl).accept_ite ")" hsome ?_).of_iff fun ps ts => ?_
  · rintro ps ts ⟨params, -, hparams⟩ -
    exact absurd rfl hparams.ne_nil
  · have hne : ∀ {params us}, Joined "," ParameterSpans params us → us ≠ [] := fun h =>
      h.ne_nil fun _ h => nomatch h
    constructor
    · rintro (⟨hclosing, rfl, rfl⟩ | ⟨⟨params, rfl, ⟨hparams, hclosing⟩⟩, hts⟩)
      · exact .none hclosing
      · exact .some (startsWith_append (hne hparams) _ ▸ hts) hparams hclosing
    · intro h
      cases h with
      | none hclosing => exact .inl (.mk hclosing ⟨rfl, rfl⟩)
      | some hts hparams hclosing =>
          exact .inr ⟨⟨_, rfl, .mk hparams hclosing⟩, startsWith_append (hne hparams) _ ▸ hts⟩

/-- **Functions.** -/
theorem function {n m : Nat} (hn : k ≤ n) (hm : k ≤ m) :
    Reads k Function.unplaced (Grammar.function n) (Grammar.function m) FunctionSpans
      fun _ => True := by
  have hread := keyword "FUN" fun offset offset' => identifier.after fun name name' hname =>
    (expect "(").after fun _ _ _ =>
      (parameters (k := k - 1) (n := n) (m := m) (by omega) (by omega)).after
        fun params params' hparams =>
        typeName.upTo "DO" (.expected "DO") (fun t ts ht => spells_eq_false ht (by decide))
          fun type type' htype =>
          (block (n := n) (m := m) (by omega) (by omega)).endedBlock Function.unplaced
            (fun body => ⟨offset, (), name, params, type, body⟩)
            (fun body => ⟨offset', (), name', params', type', body⟩) ?_
  · refine hread.of_iff fun f ts => ?_
    constructor
    · rintro ⟨_, _, _, rfl, ⟨hword⟩, _, _, _, rfl, ⟨hname⟩, _, _, _, rfl, ⟨hopening⟩, params, _, _,
        rfl, hparams, type, _, _, rfl, ⟨htype, hdo⟩, body, rfl, ⟨hbody, hend⟩⟩
      simpa [List.append_assoc] using
        FunctionSpans.mk hword hname hopening hparams htype hdo hbody hend
    · rintro ⟨hword, hname, hopening, hparams, htype, hdo, hbody, hend⟩
      exact ⟨_, [_], _, rfl, .mk hword, _, [_], _, rfl, .mk hname, _, [_], _, rfl, .mk hopening, _,
        _, _, rfl, hparams, _, _, _, by simp, .mk htype hdo, _, rfl, .mk hbody hend⟩
  · rintro body body' hbody
    obtain rfl : name' = name := hname
    obtain rfl : params' = params := hparams
    obtain rfl : type' = type := by simpa using htype
    simp only [Function.unplaced, hbody]

end Reader.Reads

/-! ## §3 Programs -/

theorem atEnd_cons (t : Token) (ts : List Token) :
    Grammar.atEnd (t :: ts) = .error ⟨t :: ts,
      if startsWithAny globalWords (t :: ts) then .globalAfterFunction else .expectedItem⟩ := by
  simp only [Grammar.atEnd]
  split <;> rfl

namespace Reader.Reads

variable {k : Nat}

theorem atEnd : Reads k id Grammar.atEnd Grammar.atEnd (fun _ ts => ts = []) fun ts => ts = [] where
  inhabited := ⟨(), [], rfl⟩
  ok {ts a rest} h := by
    cases ts with
    | nil =>
        cases h
        exact ⟨[], rfl, rfl⟩
    | cons t ts =>
        rw [atEnd_cons] at h
        cases h
  error {ts r} h := by
    cases ts with
    | nil => cases h
    | cons t ts =>
        rw [atEnd_cons] at h
        cases h
        exact ⟨[], (), [], rfl, rfl⟩
  again {taken rest a taken' rest'} h hr := by
    cases hts : taken ++ rest with
    | nil =>
        obtain ⟨rfl, rfl⟩ := List.append_eq_nil_iff.mp hts
        obtain ⟨rfl, ⟨-, rfl⟩ | ⟨_, _, _, _, hcons, -⟩⟩ := hr.cases_rest
        · exact ⟨a, rfl, rfl⟩
        · cases hcons
    | cons t ts =>
        rw [hts, atEnd_cons] at h
        cases h
  again_error {taken rest reason taken' rest'} h hr := by
    have htest := (faceTest_startsWithAny globalWords).eq_of_resembles hr
    cases hts : taken ++ rest with
    | nil =>
        rw [hts] at h
        cases h
    | cons t ts =>
        rw [hts, atEnd_cons] at h
        cases h
        obtain rfl : taken = [] := by simpa using hts
        obtain ⟨rfl, ⟨hnil, -⟩ | ⟨_, _, t', ts', -, rfl, -⟩⟩ := hr.cases_rest
        · cases hnil
        · rw [List.nil_append] at htest ⊢
          rw [atEnd_cons, htest, List.nil_append]
  complete := by
    rintro a _ _ rfl rfl _
    rfl

/-- **Programs.** -/
theorem program {n m : Nat} (hn : k ≤ n) (hm : k ≤ m) :
    Reads k Program.unplaced (Grammar.program n) (Grammar.program m) ProgramSpans
      fun ts => ts = [] := by
  have hglobals := repeatWhile (faceTest_startsWithAny globalWords) (fun g h => h.ne_nil rfl)
    (fun _ _ _ => trivial) (global hn hm) hn hm
  have hfunctions := repeatWhile (faceTest_startsWith "FUN") (fun f h => nomatch h)
    (fun _ _ _ => trivial) (function hn hm) hn hm
  have hread := hglobals.bind (j := k) (fun globals globals' hglobals =>
    hfunctions.bind (j := k) (fun functions functions' hfunctions =>
      atEnd.map Program.unplaced (fun _ => ⟨globals, functions⟩)
        (fun _ => ⟨globals', functions'⟩) ?_) (fun _ _ _ => Nat.le_add_right ..) ?_)
    (fun _ _ _ => Nat.le_add_right ..) ?_
  · refine hread.of_iff fun p ts => ?_
    constructor
    · rintro ⟨globals, gs, _, rfl, hglobals, functions, fs, _, rfl, hfunctions, _, rfl, rfl⟩
      rw [List.append_nil]
      exact .mk hglobals hfunctions
    · rintro ⟨hglobals, hfunctions⟩
      exact ⟨_, _, _, rfl, hglobals, _, _, [], by simp, hfunctions, (), rfl, rfl⟩
  · rintro - - -
    simp only [Program.unplaced, hglobals, hfunctions]
  · rintro functions p _ rest ⟨_, -, rfl⟩ rfl
    exact ⟨rfl, trivial⟩
  · rintro globals p _ rest ⟨functions, fs, _, rfl, hfunctions, _, -, rfl⟩ rfl
    refine ⟨?_, trivial⟩
    cases hfunctions with
    | nil => exact (headTest_startsWithAny globalWords).nil
    | cons hword =>
        have hne : ∀ other ∈ globalWords, "FUN" ≠ other := by decide
        exact startsWithAny_eq_false_iff.mpr fun other hother =>
          spells_eq_false hword (hne other hother)

end Reader.Reads

end Grammar

namespace Program

open Grammar

/-- What is read as a program is all there is. -/
theorem rest_eq_nil {bound : Nat} {tokens rest : List Token} {p : Program Bare}
    (h : Grammar.program bound tokens = .ok (p, rest)) : rest = [] := by
  obtain ⟨globals, _, -, h⟩ := exists_of_bind_ok h
  obtain ⟨functions, ts, -, h⟩ := exists_of_bind_ok h
  obtain ⟨_, us, hend, h⟩ := exists_of_bind_ok h
  cases h
  cases ts with
  | nil =>
      cases hend
      rfl
  | cons t ts =>
      rw [atEnd_cons] at hend
      cases hend

/-- **The grammar decides.** The token lists of programs are accepted, with the program that spans
them, and no others. -/
theorem ofTokens_eq_ok_iff {tokens : List Token} {p : Program Bare} :
    Program.ofTokens tokens = .ok p ↔ ProgramSpans p tokens := by
  have hread := Reader.Reads.program (k := tokens.length) (Nat.le_succ _) (Nat.le_succ _)
  rw [Program.ofTokens]
  constructor
  · intro h
    cases hts : Grammar.program (tokens.length + 1) tokens with
    | error r => simp [hts] at h
    | ok result =>
        obtain ⟨q, rest⟩ := result
        obtain rfl : q = p := by simpa [hts] using h
        obtain rfl := rest_eq_nil hts
        obtain ⟨taken, htaken, hp⟩ := hread.ok hts
        rwa [htaken, List.append_nil]
  · intro hp
    have h := hread.complete hp rfl (Nat.le_of_eq (by rw [List.append_nil]))
    rw [List.append_nil] at h
    simp [h]

end Program

end DynImp
