import Mathlib.Data.List.Forall2
import DynImp.Proofs.Grammar.Grammatical
import DynImp.Proofs.Grammar.Programs

/-!
# Grammatical trees are read back

Tokens that write a grammatical tree word by word are spanned by a tree that is the same
without places.  The proof goes along the tree, and is the reverse of that on writings.
-/

namespace DynImp

/-! ## §1 Lists of words -/

namespace Token

/-- The tokens write the words, one by one. -/
def WriteAll (ts : List Token) (ws : List Word) : Prop := List.Forall₂ Writes ts ws

variable {ts : List Token} {w : Word} {ws vs : List Word}

theorem writeAll_nil : WriteAll ts [] ↔ ts = [] := List.forall₂_nil_right_iff

theorem writeAll_cons :
    WriteAll ts (w :: ws) ↔ ∃ t us, ts = t :: us ∧ t.Writes w ∧ WriteAll us ws := by
  rw [WriteAll, List.forall₂_cons_right_iff]
  constructor
  · rintro ⟨t, us, ht, hus, rfl⟩
    exact ⟨t, us, rfl, ht, hus⟩
  · rintro ⟨t, us, rfl, ht, hus⟩
    exact ⟨t, us, ht, hus, rfl⟩

theorem writeAll_append :
    WriteAll ts (ws ++ vs) ↔ ∃ us rs, ts = us ++ rs ∧ WriteAll us ws ∧ WriteAll rs vs := by
  constructor
  · intro h
    exact ⟨_, _, (List.take_append_drop ws.length ts).symm, List.forall₂_take_append ts ws vs h,
      List.forall₂_drop_append ts ws vs h⟩
  · rintro ⟨us, rs, rfl, hus, hrs⟩
    exact List.rel_append hus hrs

theorem Writes.spells_mark {t : Token} {mark : String} (h : t.Writes (.mark mark)) :
    t.spells mark :=
  spells_iff.mpr ⟨.inr h.1, h.2⟩

theorem Writes.spells_name {t : Token} {word : String} (h : t.Writes (.name word)) :
    t.spells word :=
  spells_iff.mpr ⟨.inl h.1, h.2⟩

end Token

open Token (WriteAll writeAll_nil writeAll_cons writeAll_append)

theorem BinaryOp.ofSymbol?_symbol (op : BinaryOp) : ofSymbol? op.symbol = some op := by
  cases op <;> decide

theorem BinaryOp.symbol_inj {op op' : BinaryOp} (h : op.symbol = op'.symbol) : op = op' := by
  have hread := op.ofSymbol?_symbol
  rw [h, op'.ofSymbol?_symbol] at hread
  exact (Option.some.inj hread).symm

theorem Expr.rank_unplaced {ν : Notes} (e : Expr ν) : e.unplaced.rank = e.rank := by
  cases e <;> rfl

theorem Expr.rank_eq_of_unplaced {ν : Notes} {e e' : Expr ν} (h : e'.unplaced = e.unplaced) :
    e'.rank = e.rank := by
  rw [← rank_unplaced, h, rank_unplaced]

namespace Grammar

section Lists

variable {α β : Type} {P : α → List Token → Prop} {words : α → List Word} {view : α → β}
  {ts : List Token}

/-- **Read back.** The tokens are spanned by a tree that looks like this one. -/
def Rereads (P : α → List Token → Prop) (view : α → β) (a : α) (ts : List Token) : Prop :=
  ∃ a', P a' ts ∧ view a' = view a

theorem exists_joined {as : List α} (hne : as ≠ [])
    (hP : ∀ a ∈ as, ∀ us, WriteAll us (words a) → Rereads P view a us)
    (h : WriteAll ts (enumeration words as)) :
    Rereads (Joined "," P) (List.map view) as ts := by
  induction as generalizing ts with
  | nil => exact absurd rfl hne
  | cons a as ih =>
      rw [List.forall_mem_cons] at hP
      cases as with
      | nil =>
          obtain ⟨a', ha', hview⟩ := hP.1 ts h
          exact ⟨[a'], .one ha', congrArg (fun b => [b]) hview⟩
      | cons b rest =>
          obtain ⟨us, rs, rfl, hus, hrs⟩ := writeAll_append.mp h
          obtain ⟨comma, rs, rfl, hcomma, hrs⟩ := writeAll_cons.mp hrs
          obtain ⟨a', ha', hview⟩ := hP.1 us hus
          obtain ⟨as', has', hviews⟩ := ih (List.cons_ne_nil b rest) hP.2 hrs
          refine ⟨a' :: as', .more ha' hcomma.spells_mark has', ?_⟩
          rw [List.map_cons, hview, hviews]
          rfl

/-- An enumeration begins with its first member. -/
theorem exists_first_of_enumeration {a : α} {as : List α}
    (h : WriteAll ts (enumeration words (a :: as))) :
    ∃ us rs, ts = us ++ rs ∧ WriteAll us (words a) := by
  cases as with
  | nil => exact ⟨ts, [], (List.append_nil ts).symm, h⟩
  | cons b rest =>
      obtain ⟨us, rs, hts, hus, -⟩ := writeAll_append.mp h
      exact ⟨us, rs, hts, hus⟩

theorem exists_many {opens : Token → Bool} {as : List α}
    (hopens : ∀ a ∈ as, ∀ us, WriteAll us (words a) → ∃ t rest, us = t :: rest ∧ opens t = true)
    (hP : ∀ a ∈ as, ∀ us, WriteAll us (words a) → Rereads P view a us)
    (h : WriteAll ts (as.flatMap words)) : Rereads (Many opens P) (List.map view) as ts := by
  induction as generalizing ts with
  | nil =>
      obtain rfl := writeAll_nil.mp h
      exact ⟨[], .nil, rfl⟩
  | cons a as ih =>
      rw [List.forall_mem_cons] at hopens hP
      rw [List.flatMap_cons] at h
      obtain ⟨us, rs, rfl, hus, hrs⟩ := writeAll_append.mp h
      obtain ⟨a', ha', hview⟩ := hP.1 us hus
      obtain ⟨t, rest, rfl, ht⟩ := hopens.1 us hus
      obtain ⟨as', has', hviews⟩ := ih hopens.2 hP.2 hrs
      exact ⟨a' :: as', .cons ht ha' has', by rw [List.map_cons, hview, hviews, List.map_cons]⟩

end Lists

theorem typePhrase_of_writeAll {type : Option String} {ts : List Token}
    (h : WriteAll ts (typeWords type)) : TypePhrase type ts := by
  cases type with
  | none =>
      obtain rfl := writeAll_nil.mp h
      exact .none
  | some name =>
      simp only [typeWords, writeAll_cons, writeAll_nil] at h
      obtain ⟨colon, _, rfl, hcolon, t, _, rfl, ht, rfl⟩ := h
      rw [← ht.2]
      exact .some (.mk hcolon.spells_mark (.mk ht.1))

end Grammar

open Grammar

/-! ## §2 Expressions -/

/-- An expression does not begin like something else. -/
theorem Expr.Grammatical.exists_token {e : Expr Bare} (h : Expr.Grammatical e.parts)
    {ts : List Token} (hts : WriteAll ts e.words) :
    ∃ t rest, ts = t :: rest ∧ ∀ word ∈ notExpr, t.spells word = false := by
  obtain ⟨w, ws, hwords, hw⟩ := h.exists_first
  rw [hwords] at hts
  obtain ⟨t, rest, rfl, ht, -⟩ := writeAll_cons.mp hts
  exact ⟨t, rest, rfl, fun word hword => hw.spells_eq_false ht hword⟩

theorem Expr.Grammatical.rereads {e : Expr Bare} (h : Expr.Grammatical e.parts) {ts : List Token}
    (hts : WriteAll ts e.words) : Rereads Expr.Spans Expr.unplaced e ts := by
  induction e using Expr.induct_inner generalizing ts with
  | step e ih =>
      have hinner : ∀ d ∈ e.inner, ∀ us, WriteAll us d.words →
          Rereads Expr.Spans Expr.unplaced d us := fun d hd _ => ih d hd (h.inner hd)
      have hregular := h.regular
      cases e with
      | literal o τ v =>
          simp only [words, writeAll_cons, writeAll_nil] at hts
          obtain ⟨t, _, rfl, ht, rfl⟩ := hts
          exact ⟨_, .literal ht, rfl⟩
      | group o τ inner =>
          simp only [words, writeAll_cons, writeAll_append, writeAll_nil] at hts
          obtain ⟨opening, _, rfl, hopening, is, _, rfl, his, closing, _, rfl, hclosing, rfl⟩ := hts
          obtain ⟨inner', hspans, hview⟩ := hinner inner List.mem_cons_self is his
          exact ⟨_, .group hopening hspans hclosing.spells_mark, by simp only [unplaced, hview]⟩
      | binary τ op left right =>
          rw [Expr.inner, List.forall_mem_cons, List.forall_mem_singleton] at hinner
          obtain ⟨hleftRank, hrightRank⟩ := hregular
          simp only [words, writeAll_cons, writeAll_append] at hts
          obtain ⟨ls, _, rfl, hls, t, rs, rfl, ht, hrs⟩ := hts
          obtain ⟨left', hleft, hviewl⟩ := hinner.1 ls hls
          obtain ⟨right', hright, hviewr⟩ := hinner.2 rs hrs
          have hop : t.IsOperator op := ⟨ht.1, ht.2 ▸ op.ofSymbol?_symbol⟩
          rw [← rank_eq_of_unplaced hviewl] at hleftRank
          rw [← rank_eq_of_unplaced hviewr] at hrightRank
          refine ⟨_, .binary hleft hop hright hleftRank hrightRank, ?_⟩
          simp only [unplaced, hviewl, hviewr]
      | var o τ x name =>
          have hname := Unreserved.constant?_eq_none hregular
          simp only [words, writeAll_cons, writeAll_nil] at hts
          obtain ⟨t, _, rfl, ⟨hkind, rfl⟩, rfl⟩ := hts
          exact ⟨_, .var ⟨hkind, hname⟩, rfl⟩
      | element o τ x name index =>
          have hname := Unreserved.constant?_eq_none hregular
          simp only [words, writeAll_cons, writeAll_append, writeAll_nil] at hts
          obtain ⟨t, _, rfl, ⟨hkind, rfl⟩, opening, _, rfl, hopening, is, _, rfl, his, closing, _,
            rfl, hclosing, rfl⟩ := hts
          obtain ⟨index', hindex, hview⟩ := hinner index List.mem_cons_self is his
          exact ⟨_, .element ⟨hkind, hname⟩ hopening.spells_mark hindex hclosing.spells_mark,
            by simp only [unplaced, hview]⟩
      | call o τ f name args =>
          have hname := Unreserved.constant?_eq_none hregular
          simp only [words, allWords_eq, writeAll_cons, writeAll_append, writeAll_nil] at hts
          obtain ⟨t, _, rfl, ⟨hkind, rfl⟩, opening, _, rfl, hopening, as, _, rfl, has, closing, _,
            rfl, hclosing, rfl⟩ := hts
          -- Arguments begin with an expression, and so not with the closing parenthesis.
          cases args with
          | nil =>
              obtain rfl := writeAll_nil.mp has
              exact ⟨_, .callNone ⟨hkind, hname⟩ hopening.spells_mark hclosing.spells_mark, rfl⟩
          | cons first others =>
              have hfirst : Reader.startsWith ")" as = false := by
                obtain ⟨us, rs, rfl, hus⟩ := exists_first_of_enumeration has
                obtain ⟨t, rest, rfl, ht⟩ := (h.inner List.mem_cons_self).exists_token hus
                exact ht ")" (by decide)
              obtain ⟨args', hargs, hview⟩ :=
                exists_joined (List.cons_ne_nil first others) hinner has
              refine ⟨_, .callSome ⟨hkind, hname⟩ hopening.spells_mark hfirst hargs
                hclosing.spells_mark, ?_⟩
              simp only [unplaced, allUnplaced_eq, hview]
      | list o τ items =>
          simp only [words, allWords_eq, writeAll_cons, writeAll_append, writeAll_nil] at hts
          obtain ⟨opening, _, rfl, hopening, is, _, rfl, his, closing, _, rfl, hclosing, rfl⟩ := hts
          obtain ⟨items', hitems, hview⟩ := exists_joined hregular hinner his
          refine ⟨_, .list hopening hitems hclosing.spells_mark, ?_⟩
          simp only [unplaced, allUnplaced_eq, hview]

namespace Grammar

theorem exists_initialPhrase {value : Option (Expr Bare)}
    (h : ∀ e ∈ value.toList, Expr.Grammatical e.parts) {ts : List Token}
    (hts : WriteAll ts (Expr.initialWords value)) :
    Rereads InitialPhrase (Option.map Expr.unplaced) value ts := by
  cases value with
  | none =>
      obtain rfl := writeAll_nil.mp hts
      exact ⟨none, .none, rfl⟩
  | some e =>
      obtain ⟨equals, us, rfl, hequals, hus⟩ := writeAll_cons.mp hts
      obtain ⟨e', he', hview⟩ := (h e List.mem_cons_self).rereads hus
      exact ⟨some e', .some (.mk hequals.spells_mark he'), congrArg some hview⟩

/-! ## §3 Statements -/

theorem beginsStatement_iff {t : Token} :
    beginsStatement t = true ↔ ∀ word ∈ blockEnds, t.spells word = false := by
  simp [beginsStatement]

theorem beginsStatement_of_name {t : Token} {word : String} (h : t.Writes (.name word))
    (hword : word ∉ blockEnds) : beginsStatement t = true := by
  rw [beginsStatement_iff]
  intro other hother
  refine spells_eq_false h.spells_name ?_
  rintro rfl
  exact hword hother

/-- A statement does not begin like the end of a block. -/
theorem exists_beginsStatement {s : Stmt Bare} (h : s.Valid) {ts : List Token}
    (hts : WriteAll ts s.words) : ∃ t rest, ts = t :: rest ∧ beginsStatement t = true := by
  have hexpr : ∀ {e : Expr Bare} {ws : List Word}, e ∈ s.operands →
      WriteAll ts (e.words ++ ws) → ∃ t rest, ts = t :: rest ∧ beginsStatement t = true := by
    intro e ws he hws
    obtain ⟨us, rs, rfl, hus, -⟩ := writeAll_append.mp hws
    obtain ⟨t, rest, rfl, ht⟩ := (h.operand he).exists_token hus
    have hends : ∀ word ∈ blockEnds, word ∈ notExpr := by decide
    exact ⟨t, rest ++ rs, rfl, beginsStatement_iff.mpr fun word hword => ht word (hends word hword)⟩
  have hname : ∀ {word : String} {ws : List Word}, word ∉ blockEnds →
      WriteAll ts (.name word :: ws) → ∃ t rest, ts = t :: rest ∧ beginsStatement t = true := by
    intro word ws hword hws
    obtain ⟨t, rest, rfl, ht, -⟩ := writeAll_cons.mp hws
    exact ⟨t, rest, rfl, beginsStatement_of_name ht hword⟩
  cases s with
  | perform | assign => exact hexpr List.mem_cons_self hts
  | declare | choose | switch | loop | giveBack => exact hname (by decide) hts

/-- An expression does not begin like another statement. -/
theorem startsWithAny_statementWords {e : Expr Bare} (h : Expr.Grammatical e.parts)
    {ts : List Token} (hts : WriteAll ts e.words) :
    Reader.startsWithAny statementWords ts = false := by
  obtain ⟨t, rest, rfl, ht⟩ := h.exists_token hts
  have hwords : ∀ word ∈ statementWords, word ∈ notExpr := by decide
  exact startsWithAny_eq_false_iff.mpr fun word hword => ht word (hwords word hword)

/-- Blocks of statements that are read back. -/
theorem exists_block {block : List (Stmt Bare)} (h : ∀ s ∈ block, s.Valid)
    (hblock : ∀ s ∈ block, ∀ us, WriteAll us s.words → Rereads StmtSpans Stmt.unplaced s us)
    {ts : List Token} (hts : WriteAll ts (block.flatMap Stmt.words)) :
    Rereads (Many beginsStatement StmtSpans) (List.map Stmt.unplaced) block ts :=
  exists_many (fun s hs _ => exists_beginsStatement (h s hs)) hblock hts

/-- An `ELSE` and its block, or nothing in place of no statements. -/
theorem exists_tail {no : List (Stmt Bare)} (h : ∀ s ∈ no, s.Valid)
    (hblock : ∀ s ∈ no, ∀ us, WriteAll us s.words → Rereads StmtSpans Stmt.unplaced s us)
    {ts : List Token}
    (hts : WriteAll ts (if no.isEmpty then [] else .name "ELSE" :: no.flatMap Stmt.words)) :
    Rereads (Tail "ELSE" (Many beginsStatement StmtSpans)) (List.map Stmt.unplaced) no ts := by
  cases no with
  | nil =>
      obtain rfl := writeAll_nil.mp hts
      exact ⟨[], .none, rfl⟩
  | cons first others =>
      obtain ⟨word, us, rfl, hword, hus⟩ := writeAll_cons.mp hts
      obtain ⟨no', hno', hview⟩ := exists_block h hblock hus
      exact ⟨no', .some hword.spells_name hno', hview⟩

/-- Cases with a value that are read back. -/
theorem exists_valued {valued : List (Case Bare)} (hvalued : ∀ c ∈ valued, c.value.isSome)
    (hvalues : ∀ c ∈ valued, ∀ e ∈ c.value.toList, Expr.Grammatical e.parts)
    (hbodies : ∀ c ∈ valued, ∀ s ∈ c.body, s.Valid)
    (hblocks : ∀ c ∈ valued, ∀ s ∈ c.body, ∀ us, WriteAll us s.words →
      Rereads StmtSpans Stmt.unplaced s us)
    {ts : List Token} (hts : WriteAll ts (valued.flatMap Case.words)) :
    Rereads (Many (·.spells "CASE") CaseSpans) (List.map Case.unplaced) valued ts := by
  refine exists_many (fun c hc us hus => ?_) (fun c hc us hus => ?_) hts
  · obtain ⟨o, value, body⟩ := c
    obtain ⟨e, rfl⟩ := Option.isSome_iff_exists.mp (hvalued _ hc)
    obtain ⟨t, rest, rfl, ht, -⟩ := writeAll_cons.mp hus
    exact ⟨t, rest, rfl, ht.spells_name⟩
  · have hvalue := hvalues c hc
    have hbody := hbodies c hc
    have hblock := hblocks c hc
    obtain ⟨o, value, body⟩ := c
    obtain ⟨e, rfl⟩ := Option.isSome_iff_exists.mp (hvalued _ hc)
    simp only [Case.words, Stmt.blockWords_eq, writeAll_cons, writeAll_append] at hus
    obtain ⟨t, _, rfl, ht, es, _, rfl, hes, colon, bs, rfl, hcolon, hbs⟩ := hus
    obtain ⟨e', he', hview⟩ := (hvalue e List.mem_cons_self).rereads hes
    obtain ⟨body', hbody', hviews⟩ := exists_block hbody hblock hbs
    refine ⟨_, .valued ht.spells_name he' hcolon.spells_mark hbody', ?_⟩
    simp only [Case.unplaced, Stmt.blockUnplaced_eq, Option.map_some, hview, hviews]
    rfl

theorem stmt_rereads {s : Stmt Bare} (h : s.Valid) {ts : List Token} (hts : WriteAll ts s.words) :
    Rereads StmtSpans Stmt.unplaced s ts := by
  induction s using Stmt.induct_inner generalizing ts with
  | step s ih =>
      have hvalid : ∀ t ∈ s.inner, t.Valid := fun t ht => h.inner ht
      have hinner : ∀ t ∈ s.inner, ∀ us, WriteAll us t.words →
          Rereads StmtSpans Stmt.unplaced t us := fun t ht _ => ih t ht (h.inner ht)
      have hoperands : ∀ e ∈ s.operands, Expr.Grammatical e.parts := fun e he => h.operand he
      cases s with
      | perform e =>
          have he := hoperands e List.mem_cons_self
          simp only [Stmt.words, writeAll_append, writeAll_cons, writeAll_nil] at hts
          obtain ⟨es, _, rfl, hes, semi, _, rfl, hsemi, rfl⟩ := hts
          obtain ⟨e', he', hview⟩ := he.rereads hes
          refine ⟨_, .perform (startsWithAny_statementWords he hes) he' hsemi.spells_mark, ?_⟩
          simp only [Stmt.unplaced, hview]
      | declare o x name type value =>
          simp only [Stmt.words, writeAll_append, writeAll_cons, writeAll_nil] at hts
          obtain ⟨word, _, rfl, hword, t, _, rfl, ⟨hkind, rfl⟩, typeTokens, _, rfl, htype, vs, _,
            rfl, hvs, semi, _, rfl, hsemi, rfl⟩ := hts
          obtain ⟨value', hvalue, hview⟩ := exists_initialPhrase hoperands hvs
          refine ⟨_, .declare hword.spells_name hkind (typePhrase_of_writeAll htype) hvalue
            hsemi.spells_mark, ?_⟩
          simp only [Stmt.unplaced, hview]
      | assign receiver value =>
          rw [Stmt.operands, List.forall_mem_cons, List.forall_mem_singleton] at hoperands
          obtain ⟨hreceiver, hvalue⟩ := hoperands
          simp only [Stmt.words, writeAll_append, writeAll_cons, writeAll_nil] at hts
          obtain ⟨rs, _, rfl, hrs, equals, _, rfl, hequals, vs, _, rfl, hvs, semi, _, rfl, hsemi,
            rfl⟩ := hts
          obtain ⟨receiver', hreceiver', hviewr⟩ := hreceiver.rereads hrs
          obtain ⟨value', hvalue', hviewv⟩ := hvalue.rereads hvs
          refine ⟨_, .assign (startsWithAny_statementWords hreceiver hrs) hreceiver'
            hequals.spells_mark hvalue' hsemi.spells_mark, ?_⟩
          simp only [Stmt.unplaced, hviewr, hviewv]
      | choose condition yes no =>
          rw [Stmt.inner, List.forall_mem_append] at hvalid hinner
          simp only [Stmt.words, Stmt.blockWords_eq, writeAll_append, writeAll_cons,
            writeAll_nil] at hts
          obtain ⟨word, _, rfl, hword, cs, _, rfl, hcs, doWord, _, rfl, hdo, ys, _, rfl, hys, ns, _,
            rfl, hns, endWord, _, rfl, hend, rfl⟩ := hts
          obtain ⟨condition', hcondition, hviewc⟩ := (hoperands _ List.mem_cons_self).rereads hcs
          obtain ⟨yes', hyes, hviewy⟩ := exists_block hvalid.1 hinner.1 hys
          obtain ⟨no', hno, hviewn⟩ := exists_tail hvalid.2 hinner.2 hns
          refine ⟨_, .choose hword.spells_name hcondition hdo.spells_name hyes hno
            hend.spells_name, ?_⟩
          simp only [Stmt.unplaced, Stmt.blockUnplaced_eq, hviewc, hviewy, hviewn]
      | switch subject cases =>
          -- The case without a value is the last one and is written with another keyword.
          obtain ⟨valued, o, body, rfl, hvalued⟩ : Case.Closed cases := h.regular
          rw [Stmt.inner, List.flatMap_append, List.flatMap_singleton, List.forall_mem_append]
            at hvalid hinner
          rw [Stmt.operands, List.forall_mem_cons, List.flatMap_append, List.forall_mem_append]
            at hoperands
          simp only [List.forall_mem_flatMap] at hvalid hinner hoperands
          simp only [Stmt.words, Case.allWords_eq, List.flatMap_append, List.flatMap_singleton,
            Case.words, Stmt.blockWords_eq, List.append_assoc, List.cons_append, writeAll_append,
            writeAll_cons, writeAll_nil] at hts
          obtain ⟨word, _, rfl, hword, ss, _, rfl, hss, cs, _, rfl, hcs, defaultWord, _, rfl,
            hdefault, bs, _, rfl, hbs, endWord, _, rfl, hend, rfl⟩ := hts
          obtain ⟨subject', hsubject, hviews⟩ := hoperands.1.rereads hss
          obtain ⟨valued', hvalued', hviewv⟩ :=
            exists_valued hvalued hoperands.2.1 hvalid.1 hinner.1 hcs
          obtain ⟨body', hbody, hviewb⟩ := exists_block hvalid.2 hinner.2 hbs
          refine ⟨_, .switch hword.spells_name hsubject hvalued' hdefault.spells_name hbody
            hend.spells_name, ?_⟩
          simp only [Stmt.unplaced, Case.allUnplaced_eq, List.map_append, List.map_singleton,
            Case.unplaced, Stmt.blockUnplaced_eq, Option.map_none, hviews, hviewv, hviewb]
          rfl
      | loop condition body =>
          rw [Stmt.inner] at hvalid hinner
          simp only [Stmt.words, Stmt.blockWords_eq, writeAll_append, writeAll_cons,
            writeAll_nil] at hts
          obtain ⟨word, _, rfl, hword, cs, _, rfl, hcs, doWord, _, rfl, hdo, bs, _, rfl, hbs,
            endWord, _, rfl, hend, rfl⟩ := hts
          obtain ⟨condition', hcondition, hviewc⟩ := (hoperands _ List.mem_cons_self).rereads hcs
          obtain ⟨body', hbody, hviewb⟩ := exists_block hvalid hinner hbs
          refine ⟨_, .loop hword.spells_name hcondition hdo.spells_name hbody hend.spells_name, ?_⟩
          simp only [Stmt.unplaced, Stmt.blockUnplaced_eq, hviewc, hviewb]
      | giveBack value =>
          simp only [Stmt.words, writeAll_append, writeAll_cons, writeAll_nil] at hts
          obtain ⟨word, _, rfl, hword, vs, _, rfl, hvs, semi, _, rfl, hsemi, rfl⟩ := hts
          obtain ⟨value', hvalue, hview⟩ := (hoperands _ List.mem_cons_self).rereads hvs
          refine ⟨_, .giveBack hword.spells_name hvalue hsemi.spells_mark, ?_⟩
          simp only [Stmt.unplaced, hview]

/-! ## §4 Items -/

theorem global_rereads {g : Global Bare} (h : g.Grammatical)
    (hvalues : ∀ e ∈ g.value.toList, Expr.Grammatical e.parts) {ts : List Token}
    (hts : WriteAll ts g.words) : Rereads GlobalSpans Global.unplaced g ts := by
  obtain ⟨o, x, name, type, changes, isList, value⟩ := g
  simp only [Global.words, writeAll_append, writeAll_cons] at hts
  obtain ⟨word, _, rfl, hword, t, _, rfl, ⟨hkind, rfl⟩, typeTokens, vs, rfl, htype, hvs⟩ := hts
  have htype' := typePhrase_of_writeAll htype
  have hkeyword := hword.spells_name
  cases isList with
  | true =>
      obtain ⟨rfl, o', τ, items, rfl⟩ := h.list rfl
      obtain ⟨equals, us, rfl, hequals, hus⟩ := writeAll_cons.mp hvs
      obtain ⟨value', hvalue, hview⟩ := (hvalues _ List.mem_cons_self).rereads hus
      cases hvalue with
      | list hopening hitems hclosing =>
          have hspells := Token.spells_iff.mpr ⟨.inr hopening.1, hopening.2⟩
          refine ⟨_, .list hkeyword hkind htype' hequals.spells_mark hspells hitems hclosing, ?_⟩
          simp only [Global.unplaced, Option.map_some, hview]
      | _ => simp [Expr.unplaced] at hview
  | false =>
      cases changes with
      | true =>
          obtain ⟨value', hvalue, hview⟩ := exists_initialPhrase hvalues hvs
          exact ⟨_, .var hkeyword hkind htype' hvalue, by simp only [Global.unplaced, hview]⟩
      | false =>
          obtain ⟨e, rfl⟩ := Option.isSome_iff_exists.mp (h.constant rfl rfl)
          obtain ⟨equals, us, rfl, hequals, hus⟩ := writeAll_cons.mp hvs
          obtain ⟨value', hvalue, hview⟩ := (hvalues _ List.mem_cons_self).rereads hus
          refine ⟨_, .val hkeyword hkind htype' hequals.spells_mark hvalue, ?_⟩
          simp only [Global.unplaced, Option.map_some, hview]

theorem parameterSpans_of_writeAll {x : Parameter} {ts : List Token} (hts : WriteAll ts x.words) :
    ParameterSpans x ts := by
  obtain ⟨name, type⟩ := x
  obtain ⟨t, us, rfl, ⟨hkind, rfl⟩, hus⟩ := writeAll_cons.mp hts
  exact .mk hkind (typePhrase_of_writeAll hus)

theorem parametersSpan_of_writeAll {params : List Parameter} (h : ∀ x ∈ params, x.Grammatical)
    {ts : List Token} (hts : WriteAll ts (enumeration Parameter.words params ++ [.mark ")"])) :
    ParametersSpan params ts := by
  simp only [writeAll_append, writeAll_cons, writeAll_nil] at hts
  obtain ⟨ps, _, rfl, hps, closing, _, rfl, hclosing, rfl⟩ := hts
  cases params with
  | nil =>
      obtain rfl := writeAll_nil.mp hps
      exact .none hclosing.spells_mark
  | cons x params =>
      have hfirst : Reader.startsWith ")" ps = false := by
        obtain ⟨us, rs, rfl, hus⟩ := exists_first_of_enumeration hps
        obtain ⟨t, rest, rfl, ht, -⟩ := writeAll_cons.mp hus
        have hname := (h x List.mem_cons_self).name.not_mem_notExpr
        refine spells_eq_false ht.spells_name fun heq => hname ?_
        rw [heq]
        decide
      have hjoined : Rereads (Joined "," ParameterSpans) (List.map id) (x :: params) ps :=
        exists_joined (List.cons_ne_nil x params)
          (fun x _ us hus => ⟨x, parameterSpans_of_writeAll hus, rfl⟩) hps
      obtain ⟨params', hparams, hview⟩ := hjoined
      rw [List.map_id, List.map_id] at hview
      subst hview
      exact .some hfirst hparams hclosing.spells_mark

theorem function_rereads {f : Function Bare} (h : f.Grammatical)
    (hvalid : ∀ s ∈ f.body, s.Valid) {ts : List Token} (hts : WriteAll ts f.words) :
    Rereads FunctionSpans Function.unplaced f ts := by
  obtain ⟨o, x, name, params, type, body⟩ := f
  rw [Function.words, writeAll_cons] at hts
  obtain ⟨word, _, rfl, hword, hts⟩ := hts
  rw [writeAll_cons] at hts
  obtain ⟨t, _, rfl, ⟨hkind, rfl⟩, hts⟩ := hts
  rw [writeAll_cons] at hts
  obtain ⟨opening, _, rfl, hopening, hts⟩ := hts
  rw [writeAll_append] at hts
  obtain ⟨ps, _, rfl, hps, hts⟩ := hts
  simp only [writeAll_append, writeAll_cons, writeAll_nil] at hts
  obtain ⟨typeTokens, _, rfl, htype, doWord, _, rfl, hdo, bs, _, rfl, hbs, endWord, _, rfl, hend,
    rfl⟩ := hts
  obtain ⟨body', hbody, hview⟩ :=
    exists_block hvalid (fun s hs _ => stmt_rereads (hvalid s hs)) hbs
  refine ⟨_, .mk hword.spells_name hkind hopening.spells_mark
    (parametersSpan_of_writeAll h.params hps) (typePhrase_of_writeAll htype) hdo.spells_name hbody
    hend.spells_name, ?_⟩
  simp only [Function.unplaced, hview]

theorem beginsGlobal_of_keyword {g : Global Bare} {t : Token} (h : t.Writes (.name g.keyword)) :
    beginsGlobal t = true := by
  have hkeyword : g.keyword ∈ globalWords := by
    unfold Global.keyword
    split
    · decide
    · split <;> decide
  rw [beginsGlobal, List.any_eq_true]
  exact ⟨g.keyword, hkeyword, h.spells_name⟩

/-- **Reading back.** Tokens that write a grammatical program are spanned by it, up to places. -/
theorem program_rereads {p : Program Bare} (h : p.Grammatical) {ts : List Token}
    (hts : WriteAll ts p.words) : Rereads ProgramSpans Program.unplaced p ts := by
  obtain ⟨gs, fs, rfl, hgs, hfs⟩ := writeAll_append.mp hts
  have hglobals : Rereads (Many beginsGlobal (Ended ";" GlobalSpans)) (List.map Global.unplaced)
      p.globals gs := by
    refine exists_many (fun g _ us hus => ?_) (fun g hg us hus => ?_) hgs
    · obtain ⟨t, rest, rfl, ht, -⟩ := writeAll_cons.mp hus
      exact ⟨t, rest, rfl, beginsGlobal_of_keyword ht⟩
    · simp only [writeAll_append, writeAll_cons, writeAll_nil] at hus
      obtain ⟨vs, _, rfl, hvs, semi, _, rfl, hsemi, rfl⟩ := hus
      obtain ⟨g', hg', hview⟩ := global_rereads (h.globals g hg) (fun e he => h.value hg he) hvs
      exact ⟨g', .mk hg' hsemi.spells_mark, hview⟩
  have hfunctions : Rereads (Many (·.spells "FUN") FunctionSpans) (List.map Function.unplaced)
      p.functions fs := by
    refine exists_many (fun f _ us hus => ?_) (fun f hf us hus => ?_) hfs
    · obtain ⟨t, rest, rfl, ht, -⟩ := writeAll_cons.mp hus
      exact ⟨t, rest, rfl, ht.spells_name⟩
    · exact function_rereads (h.functions f hf) (fun s hs => h.body hf hs) hus
  obtain ⟨globals, hglobals', hviewg⟩ := hglobals
  obtain ⟨functions, hfunctions', hviewf⟩ := hfunctions
  exact ⟨_, .mk hglobals' hfunctions', congrArg₂ Program.mk hviewg hviewf⟩

end Grammar

end DynImp
