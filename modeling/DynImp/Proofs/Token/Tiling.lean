import DynImp.Proofs.Token.Spelling

/-!
# The tokens of a text

What it means that tokens are all there is in a text, said of the text as a whole: they
stand in it one after another, and between them there is nothing but white space.  A text
is scanned into tokens exactly if these tile it (`scan_eq_ok_iff`).

Tiling is a statement about byte positions.  The bridge to the scanner takes the first
character off the text: it is either white space or the beginning of the first token.
-/

namespace DynImp

namespace Text

/-! ## §1 Positions -/

theorem utf8ByteSize_ofList (cs : List Char) : (String.ofList cs).utf8ByteSize = width cs := by
  induction cs with
  | nil => rfl
  | cons c cs ih =>
      rw [← List.singleton_append, String.ofList_append, String.utf8ByteSize_append, ih]
      simp

theorem width_eq_zero {cs : List Char} (h : width cs = 0) : cs = [] := by
  cases cs with
  | nil => rfl
  | cons c cs =>
      have := c.utf8Size_pos
      rw [width_cons] at h
      omega

/-- Of two beginnings of one text the narrower one begins the other. -/
theorem exists_append_of_width_le {as bs cs ds : List Char} (h : as ++ bs = cs ++ ds)
    (hwidth : width as ≤ width cs) : ∃ mid, cs = as ++ mid ∧ bs = mid ++ ds := by
  obtain ⟨mid, rfl, rfl⟩ | ⟨mid, rfl, rfl⟩ := List.append_eq_append_iff.mp h
  · exact ⟨mid, rfl, rfl⟩
  · have hmid : width mid = 0 := by
      rw [width_append] at hwidth
      omega
    rw [width_eq_zero hmid]
    exact ⟨[], by simp, by simp⟩

/-- A code point in a table lies in one of its ranges. -/
theorem RangeTable.exists_of_covers {table : RangeTable} {n : Nat} (h : table.covers n) :
    ∃ range ∈ table, range.1 ≤ n ∧ n ≤ range.2 := by
  induction table with
  | nil => cases h
  | cons range table ih =>
      unfold covers at h
      split at h
      · cases h
      · split at h
        · exact ⟨range, List.mem_cons_self, by omega, by omega⟩
        · obtain ⟨other, hmem, hother⟩ := ih h
          exact ⟨other, List.mem_cons_of_mem _ hmem, hother⟩

/-- A character of one table is in no other one whose ranges are all apart from its ranges. -/
theorem RangeTable.contains_eq_false {table other : RangeTable}
    (h : ∀ range ∈ table, ∀ range' ∈ other, range.2 < range'.1 ∨ range'.2 < range.1) {c : Char}
    (hc : table.contains c) : other.contains c = false := by
  refine Bool.eq_false_iff.mpr fun hother => ?_
  obtain ⟨range, hrange, hlow, hhigh⟩ := exists_of_covers hc
  obtain ⟨range', hrange', hlow', hhigh'⟩ := exists_of_covers hother
  have := h range hrange range' hrange'
  omega

/-- No range of white space meets one of letters. -/
theorem blankTable_disjoint : ∀ blank ∈ blankTable, ∀ letters ∈ alphabeticTable,
    blank.2 < letters.1 ∨ letters.2 < blank.1 := by
  decide +kernel

theorem isAlphabetic_of_isBlank {c : Char} (h : isBlank c) : isAlphabetic c = false :=
  RangeTable.contains_eq_false blankTable_disjoint h

theorem isBlank_of_isDigit {c : Char} (h : c.isDigit) : isBlank c = false := by
  have hrange : 48 ≤ c.toNat ∧ c.toNat ≤ 57 := by
    simpa [Char.isDigit, Char.le_def, UInt32.le_iff_toNat_le] using h
  have hapart : ∀ blank ∈ blankTable, blank.2 < 48 ∨ 57 < blank.1 := by decide
  refine Bool.eq_false_iff.mpr fun hblank => ?_
  obtain ⟨blank, hmem, hlow, hhigh⟩ := RangeTable.exists_of_covers hblank
  have := hapart blank hmem
  omega

end Text

namespace Token

open DynImp.Text

/-! ## §2 Tilings -/

/-- **Places.** The token stands in a text that begins at byte `start`: its text is a slice of it
that begins at its offset, has a spelling of its kind, and could not be longer. -/
def StandsIn (start : Nat) (cs : List Char) (t : Token) : Prop :=
  ∃ before after, cs = before ++ (t.text.toList ++ after) ∧ t.offset = start + width before ∧
    t.kind.Spells t.text.toList ∧ t.kind.EndsBefore t.text.toList after

/-- Whether a byte position lies in the token. -/
def Covers (t : Token) (position : Nat) : Prop := t.offset ≤ position ∧ position < t.stop

/-- **Tilings.** The tokens stand in a text that begins at byte `start`, in order and apart from
each other, and cover all of it but white space. -/
structure Tiles (start : Nat) (cs : List Char) (ts : List Token) : Prop where
  stands : ∀ t ∈ ts, t.StandsIn start cs
  apart : ts.Pairwise fun t u => t.stop ≤ u.offset
  blank : ∀ before c after, cs = before ++ c :: after →
    (∀ t ∈ ts, ¬ t.Covers (start + width before)) → isBlank c

theorem isBlank_of_isNameStart {c : Char} (h : isNameStart c) : isBlank c = false := by
  refine Bool.eq_false_iff.mpr fun hblank => ?_
  have hat : c ≠ '@' := by
    rintro rfl
    exact absurd hblank (by decide)
  simp [isNameStart, isAlphabetic_of_isBlank hblank, hat] at h

theorem IsInteger.exists_cons {cs : List Char} (h : IsInteger cs) :
    ∃ first others, cs = first :: others ∧ isBlank first = false := by
  obtain ⟨sign, magnitude, rfl | rfl, hmagnitude, rfl⟩ := h
  · obtain ⟨digit, others, rfl⟩ := hmagnitude.exists_cons
    exact ⟨digit, others, rfl, isBlank_of_isDigit hmagnitude.isDigit.1⟩
  · exact ⟨'-', magnitude, rfl, by decide⟩

/-- A spelling has a first character, and that is not white space. -/
theorem Kind.Spells.exists_cons {kind : Kind} {cs : List Char} (h : kind.Spells cs) :
    ∃ first others, cs = first :: others ∧ isBlank first = false := by
  cases kind with
  | identifier =>
      obtain ⟨first, others, rfl, hfirst, -⟩ := h
      exact ⟨first, others, rfl, isBlank_of_isNameStart hfirst⟩
  | integer => exact IsInteger.exists_cons h
  | decimal =>
      obtain ⟨whole, fraction, hwhole, -, -, rfl⟩ := h
      obtain ⟨first, others, rfl, hfirst⟩ := hwhole.exists_cons
      exact ⟨first, _, rfl, hfirst⟩
  | character =>
      obtain ⟨unit, -, rfl⟩ := h
      exact ⟨'\'', _, rfl, by decide⟩
  | string =>
      obtain ⟨units, -, rfl⟩ := h
      exact ⟨'"', _, rfl, by decide⟩
  | operator =>
      have hall : ∀ op ∈ operators, op ≠ [] ∧ op.head?.all (!isBlank ·) := by decide
      obtain ⟨hne, hhead⟩ := hall cs h
      cases cs with
      | nil => exact absurd rfl hne
      | cons c others => exact ⟨c, others, rfl, by simpa using hhead⟩

theorem stop_eq (t : Token) : t.stop = t.offset + width t.text.toList := by
  rw [stop, ← utf8ByteSize_ofList, String.ofList_toList]

theorem StandsIn.start_le {start : Nat} {cs : List Char} {t : Token} (h : t.StandsIn start cs) :
    start ≤ t.offset ∧ t.offset < t.stop := by
  obtain ⟨before, after, -, hoffset, hspells, -⟩ := h
  obtain ⟨first, others, htext, -⟩ := hspells.exists_cons
  have := first.utf8Size_pos
  rw [stop_eq, htext, width_cons]
  omega

/-- A token stands in every text that goes on with one in which it stands. -/
theorem StandsIn.append {start : Nat} {front cs : List Char} {t : Token}
    (h : t.StandsIn (start + width front) cs) : t.StandsIn start (front ++ cs) := by
  obtain ⟨before, after, rfl, hoffset, hspells, hends⟩ := h
  refine ⟨front ++ before, after, by simp, ?_, hspells, hends⟩
  rw [width_append]
  omega

/-- A token that begins behind a part of the text stands in what follows this part. -/
theorem StandsIn.of_append {start : Nat} {front cs : List Char} {t : Token}
    (h : t.StandsIn start (front ++ cs)) (hbehind : start + width front ≤ t.offset) :
    t.StandsIn (start + width front) cs := by
  obtain ⟨before, after, heq, hoffset, hspells, hends⟩ := h
  obtain ⟨mid, rfl, rfl⟩ := exists_append_of_width_le heq (by omega)
  refine ⟨mid, after, rfl, ?_, hspells, hends⟩
  rw [width_append] at hoffset
  omega

/-! ## §3 The first character -/

theorem tiles_nil (start : Nat) (ts : List Token) : Tiles start [] ts ↔ ts = [] := by
  constructor
  · intro h
    refine List.eq_nil_iff_forall_not_mem.mpr fun t ht => ?_
    obtain ⟨before, after, heq, -, hspells, -⟩ := h.stands t ht
    obtain ⟨first, others, htext, -⟩ := hspells.exists_cons
    simp [htext] at heq
  · rintro rfl
    exact ⟨by simp, List.Pairwise.nil, by simp⟩

/-- White space in front is skipped. -/
theorem tiles_blank {start : Nat} {c : Char} {cs : List Char} {ts : List Token}
    (hc : isBlank c) : Tiles start (c :: cs) ts ↔ Tiles (start + c.utf8Size) cs ts := by
  constructor
  · intro h
    refine ⟨fun t ht => ?_, h.apart, fun before d after heq huncovered => ?_⟩
    · have hstands : t.StandsIn start ([c] ++ cs) := h.stands t ht
      refine hstands.of_append ?_
      obtain ⟨before, after, heq, hoffset, hspells, -⟩ := hstands
      cases before with
      | nil =>
          -- A token at the very front would begin with white space.
          obtain ⟨first, others, htext, hfirst⟩ := hspells.exists_cons
          rw [htext] at heq
          obtain ⟨rfl, -⟩ := List.cons.inj heq
          rw [hc] at hfirst
          cases hfirst
      | cons d before =>
          obtain ⟨rfl, -⟩ := List.cons.inj heq
          simp only [width_cons, width_nil] at hoffset ⊢
          omega
    · refine h.blank (c :: before) d after (by rw [heq]; rfl) ?_
      rwa [width_cons, ← Nat.add_assoc]
  · intro h
    refine ⟨fun t ht => ?_, h.apart, fun before d after heq huncovered => ?_⟩
    · have hstands : t.StandsIn (start + width [c]) cs := h.stands t ht
      exact hstands.append
    · cases before with
      | nil =>
          obtain ⟨rfl, -⟩ := List.cons.inj heq
          exact hc
      | cons b before =>
          obtain ⟨rfl, hcs⟩ := List.cons.inj heq
          refine h.blank before d after hcs ?_
          rwa [width_cons, ← Nat.add_assoc] at huncovered

/-- The token that a lexeme at byte `start` gives. -/
def Lexeme.token (start : Nat) (l : Lexeme) : Token := ⟨l.kind, String.ofList l.text, start⟩

theorem Lexeme.token_stop (start : Nat) (l : Lexeme) :
    (l.token start).stop = start + width l.text := by
  simp [stop_eq, token]

theorem Lexeme.Proper.standsIn {l : Lexeme} (h : l.Proper) (start : Nat) :
    (l.token start).StandsIn start (l.text ++ l.rest) :=
  ⟨[], l.rest, by simp [token], by simp [token], by simpa [token] using h.spells,
    by simpa [token] using h.ends⟩

/-- After a proper lexeme a text is tiled by its token and by those of the rest. -/
theorem Lexeme.Proper.tiles {l : Lexeme} (h : l.Proper) {start : Nat} {ts : List Token}
    (hrest : Tiles (start + width l.text) l.rest ts) :
    Tiles start (l.text ++ l.rest) (l.token start :: ts) := by
  refine ⟨?_, ?_, fun before c after heq huncovered => ?_⟩
  · rw [List.forall_mem_cons]
    exact ⟨h.standsIn start, fun t ht => (hrest.stands t ht).append⟩
  · rw [List.pairwise_cons]
    refine ⟨fun t ht => ?_, hrest.apart⟩
    rw [Lexeme.token_stop]
    exact (hrest.stands t ht).start_le.1
  · rw [List.forall_mem_cons] at huncovered
    have hbehind : width l.text ≤ width before := by
      have := huncovered.1
      rw [Covers, Lexeme.token_stop] at this
      simp only [Lexeme.token] at this
      omega
    obtain ⟨mid, rfl, hmid⟩ := exists_append_of_width_le heq hbehind
    refine hrest.blank mid c after hmid ?_
    have := huncovered.2
    rwa [width_append, ← Nat.add_assoc] at this

/-- In a tiled text that does not begin with white space the first token is at the front. -/
theorem Tiles.exists_lexeme {start : Nat} {c : Char} {cs : List Char} {ts : List Token}
    (h : Tiles start (c :: cs) ts) (hc : isBlank c = false) :
    ∃ l : Lexeme, l.Proper ∧ l.text ++ l.rest = c :: cs ∧
      ∃ others, ts = l.token start :: others ∧ Tiles (start + width l.text) l.rest others := by
  -- The first byte is covered, and only the first token can do this.
  have hcovered : ∃ t ∈ ts, t.Covers start := by
    refine Classical.byContradiction fun hnone => ?_
    have hblank := h.blank [] c cs rfl fun t ht hcovers => hnone ⟨t, ht, hcovers⟩
    rw [hc] at hblank
    cases hblank
  obtain ⟨t, ht, hcovers⟩ := hcovered
  cases ts with
  | nil => cases ht
  | cons u others =>
      have hapart := List.pairwise_cons.mp h.apart
      have hstands := List.forall_mem_cons.mp h.stands
      obtain rfl : t = u := by
        -- All others begin where the first one has ended, which is behind this byte.
        obtain heq | hmem := List.mem_cons.mp ht
        · exact heq
        · have hu := hstands.1.start_le
          have := hapart.1 t hmem
          have := hcovers.1
          omega
      obtain ⟨before, after, heq, hoffset, hspells, hends⟩ := hstands.1
      obtain rfl : before = [] := by
        have := hcovers.1
        exact width_eq_zero (by omega)
      have hoffset' : t.offset = start := by simpa using hoffset
      -- The other tokens stand in what follows the first one, and leave the same bytes uncovered.
      refine ⟨⟨t.kind, t.text.toList, after⟩, ⟨hspells, hends⟩, heq.symm, others, ?_, ?_⟩
      · simp [Lexeme.token, ← hoffset']
      · have hstop : t.stop = start + width t.text.toList := by rw [stop_eq, hoffset']
        rw [List.nil_append] at heq
        refine ⟨fun v hv => ?_, hapart.2, fun before d rest hafter huncovered => ?_⟩
        · have hv' := hstands.2 v hv
          rw [heq] at hv'
          exact hv'.of_append (hstop ▸ hapart.1 v hv)
        · have hcs : c :: cs = t.text.toList ++ before ++ d :: rest := by
            rw [heq, List.append_assoc]
            exact congrArg (t.text.toList ++ ·) hafter
          refine h.blank (t.text.toList ++ before) d rest hcs ?_
          rw [width_append, ← Nat.add_assoc, List.forall_mem_cons]
          refine ⟨fun hcovers => ?_, huncovered⟩
          have := hcovers.2
          omega

/-- The first lexeme of a text gives the first token of every tiling. -/
theorem tiles_lexeme {start : Nat} {c : Char} {cs : List Char} {ts : List Token} {l : Lexeme}
    (hc : isBlank c = false) (hl : lexeme c cs = .ok l) :
    Tiles start (c :: cs) ts ↔
      ∃ others, ts = l.token start :: others ∧ Tiles (start + width l.text) l.rest others := by
  obtain ⟨hproper, htext⟩ := lexeme_eq_ok_iff.mp hl
  constructor
  · intro h
    obtain ⟨l', hproper', htext', others, hts, hothers⟩ := h.exists_lexeme hc
    -- There is only one proper lexeme at the front: what the scanner finds.
    have hl' := lexeme_eq_ok_iff.mpr ⟨hproper', htext'⟩
    obtain rfl : l = l' := Except.ok.inj (hl.symm.trans hl')
    exact ⟨others, hts, hothers⟩
  · rintro ⟨others, rfl, hothers⟩
    rw [← htext]
    exact hproper.tiles hothers

/-! ## §4 Whole texts -/

theorem scanFrom_eq_ok_iff {start : Nat} {cs : List Char} {ts : List Token} :
    scanFrom start cs = .ok ts ↔ Tiles start cs ts := by
  fun_induction scanFrom start cs generalizing ts with
  | case1 start =>
      rw [tiles_nil, Except.ok.injEq]
      exact eq_comm
  | case2 start c rest hc ih => rw [tiles_blank hc, ih]
  | case3 start c rest hc distance fault hscanned =>
      constructor
      · exact fun h => nomatch h
      · intro h
        obtain ⟨l, hproper, htext, -⟩ := h.exists_lexeme (by simpa using hc)
        rw [lexeme_of_proper hproper htext] at hscanned
        cases hscanned
  | case4 start c rest hc l hscanned tokens htokens ih =>
      rw [tiles_lexeme (by simpa using hc) hscanned, Except.ok.injEq]
      constructor
      · rintro rfl
        exact ⟨tokens, rfl, ih.mp htokens⟩
      · rintro ⟨others, rfl, hothers⟩
        have := ih.mpr hothers
        rw [htokens, Except.ok.injEq] at this
        rw [this]
        rfl
  | case5 start c rest hc l hscanned e he ih =>
      rw [tiles_lexeme (by simpa using hc) hscanned]
      constructor
      · exact fun h => nomatch h
      · rintro ⟨others, -, hothers⟩
        rw [ih.mpr hothers] at he
        cases he

/-- **The lexical grammar is what is scanned.** A text has these tokens exactly if they tile it. -/
theorem scan_eq_ok_iff (text : String) (ts : List Token) :
    scan text = .ok ts ↔ Tiles 0 text.toList ts :=
  scanFrom_eq_ok_iff

end Token

end DynImp
