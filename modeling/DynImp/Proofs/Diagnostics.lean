import DynImp.Proofs.Grammar.Faithful
import DynImp.Proofs.Grammar.Prefix
import DynImp.Proofs.Token.Boundaries
import DynImp.Source

/-!
# Errors point into the text

A text that is rejected can be cut at the byte that is reported, whichever stage rejects it.
The scanner points between two characters, the parser at a token or behind the last one,
and the checker at a token, unless there is no `main` that it could point at.
-/

namespace DynImp

open Grammar

/-! ## §1 Trees -/

theorem Grammar.HasSlice.offset_mem {α : Type} {P : α → List Token → Prop} {ts : List Token} {a : α}
    {offset : Nat} (h : HasSlice P ts a)
    (hoffset : ∀ us, P a us → us.head?.map Token.offset = some offset) :
    offset ∈ ts.map Token.offset := by
  obtain ⟨us, hus, ha⟩ := h
  obtain ⟨t, ht, rfl⟩ := Option.map_eq_some_iff.mp (hoffset us ha)
  exact List.mem_map_of_mem (hus.subset (List.mem_of_head? ht))

/-- A statement that was read has its fault at a token: its `DEFAULT` is in place. -/
theorem Stmt.Faulty.offset_mem {s : Stmt Bare} {ts : List Token} {e : Typing.TypeError}
    (hs : HasSlice StmtSpans ts s) (h : s.Faulty e) : e.offset ∈ ts.map Token.offset := by
  cases h with
  | declare h =>
      rw [h.offset_eq]
      exact hs.offset_mem fun us hus => hus.offset_eq _ rfl
  | misplaced =>
      obtain ⟨us, -, hus⟩ := hs
      exact absurd hus.cases_closed Case.not_closed

/-- The checker points at a token of the program, if it does not miss `main`. -/
theorem Program.Faulty.offset_mem {p : Program Bare} {ts : List Token} {e : Typing.TypeError}
    (hts : ∀ t ∈ ts, t.Spelled) (hspans : ProgramSpans p ts) (h : p.Faulty e) :
    e.offset ∈ ts.map Token.offset ∨ e = ⟨0, .missingMain⟩ := by
  cases h with
  | part h =>
      left
      obtain ⟨d, hd, h⟩ | ⟨s, hs, h⟩ := h
      · have hslice := hspans.expr_slices
          (fun t ht hmark => (hts t ht).writes_mark hmark (by decide)) d hd
        rw [h.offset_eq]
        exact hslice.offset_mem fun us hus => hus.offset_eq
      · exact h.offset_mem (hspans.stmt_slices s hs)
  | @global g _ hg h =>
      have hfault : e.offset = g.offset := h.offset_eq
      rw [hfault]
      exact .inl ((hspans.global_slices g hg).offset_mem fun us hus => hus.offset_eq)
  | @function f _ hf h =>
      cases h
      exact .inl ((hspans.function_slices f hf).offset_mem fun us hus => hus.offset_eq)
  | missingMain => exact .inr rfl
  | main hfind _ =>
      have hslice := hspans.function_slices _ (List.mem_of_find?_eq_some hfind)
      exact .inl (hslice.offset_mem fun us hus => hus.offset_eq)

/-! ## §2 Texts -/

namespace Source

/-- **Positions.** The byte is one of the text or its end, and lies between two characters. -/
structure Position (text : String) (offset : Nat) : Prop where
  le : offset ≤ text.utf8ByteSize
  isValid : (⟨offset⟩ : String.Pos.Raw).IsValid text

theorem position_of_isBoundary {text : String} {n : Nat} (h : Text.IsBoundary text.toList n) :
    Position text n :=
  ⟨h.isValid.le_utf8ByteSize, h.isValid⟩

/-- **Placed failures.** The failure is that of a stage before the run, and points where errors of
this stage may point. -/
inductive Failure.Placed (text : String) : Failure → Prop where
  | scan {e} : Position text e.offset → Placed text (.scan e)
  | parse {ts e} : Token.scan text = .ok ts → Position text e.offset →
      e.offset ∈ ts.map Token.offset ∨ e.offset = Token.endOf ts → Placed text (.parse e)
  | type {ts e} : Token.scan text = .ok ts → Position text e.offset →
      e.offset ∈ ts.map Token.offset ∨ e = ⟨0, .missingMain⟩ → Placed text (.type e)

section Stages

variable {text : String} {ts : List Token}

theorem position_of_mem (hscan : Token.scan text = .ok ts) {offset : Nat}
    (h : offset ∈ ts.map Token.offset) : Position text offset := by
  obtain ⟨t, ht, rfl⟩ := List.mem_map.mp h
  exact position_of_isBoundary ((Token.scanFrom_eq_ok_iff.mp hscan).stands t ht).isBoundary.1

theorem parse_placed (hscan : Token.scan text = .ok ts) {e : ParseError}
    (h : Program.ofTokens ts = .error e) : (Failure.parse e).Placed text := by
  obtain ⟨taken, r, -, htokens, rfl⟩ := exists_refusal h
  have hoffset := r.locate_offset ts
  cases hrest : r.rest with
  | nil =>
      have hend : (r.locate ts).offset = Token.endOf ts := by simpa [hrest] using hoffset
      refine .parse hscan ?_ (.inr hend)
      rw [hend]
      exact position_of_isBoundary (Token.scanFrom_eq_ok_iff.mp hscan).isBoundary_endOf
  | cons t rest =>
      have hmem : (r.locate ts).offset ∈ ts.map Token.offset := by
        have ht : (r.locate ts).offset = t.offset := by simpa [hrest] using hoffset
        rw [ht, htokens, hrest]
        exact List.mem_map_of_mem (by simp)
      exact .parse hscan (position_of_mem hscan hmem) (.inl hmem)

theorem type_placed (hscan : Token.scan text = .ok ts) {p : Program Bare}
    (hparse : Program.ofTokens ts = .ok p) {e : Typing.TypeError} (h : p.check = .error e) :
    (Failure.type e).Placed text := by
  have hplace := (p.check_failsOnly e h).offset_mem (Token.spelled_of_scan hscan)
    (Program.ofTokens_eq_ok_iff.mp hparse)
  refine .type hscan ?_ hplace
  obtain hmem | rfl := hplace
  · exact position_of_mem hscan hmem
  · exact position_of_isBoundary (Text.isBoundary_zero _)

end Stages

/-- **Diagnostics.** Whatever is reported of a text that does not become a checked program points to
a place in the text. -/
theorem check_error_placed {text : String} {f : Failure} (h : check text = .error f) :
    f.Placed text := by
  cases hscan : Token.scan text with
  | error e =>
      simp only [check, parse, hscan] at h
      cases h
      exact .scan (position_of_isBoundary (Token.scan_fault hscan))
  | ok ts =>
      cases hparse : Program.ofTokens ts with
      | error e =>
          simp only [check, parse, hscan, hparse, Except.mapError] at h
          cases h
          exact parse_placed hscan hparse
      | ok p =>
          simp only [check, parse, hscan, hparse, Except.mapError] at h
          cases hcheck : p.check with
          | error e =>
              rw [hcheck] at h
              cases h
              exact type_placed hscan hparse hcheck
          | ok q =>
              rw [hcheck] at h
              cases h

/-- What is reported of a text, if anything is. -/
def rejection? (text : String) : Option Failure :=
  match check text with
  | .error f => some f
  | .ok _ => none

theorem check_of_rejection? {text : String} {f : Failure} (h : rejection? text = some f) :
    check text = .error f := by
  rw [rejection?] at h
  split at h
  · next heq => rw [heq, Option.some.inj h]
  · cases h

/-- A program with a fault behind characters of two and of three bytes. -/
def mixed : String := "FUN main(): Integer DO print(\"ä→\"); RETURN 'x' + 1; END"

theorem mixed_error_placed :
    check mixed = .error (.type ⟨46, .invalidOperands .add .character .integer⟩) ∧
      (Failure.type ⟨46, .invalidOperands .add .character .integer⟩).Placed mixed := by
  have hreport : rejection? mixed =
      some (.type ⟨46, .invalidOperands .add .character .integer⟩) := by
    decide +kernel
  have hcheck := check_of_rejection? hreport
  exact ⟨hcheck, check_error_placed hcheck⟩

end Source

end DynImp
