import DynImp.Proofs.Grammar.Programs

/-!
# Errors stand where programs end

A list of tokens is refused at the first token that no program with this beginning goes on
with: what stands before it is the beginning of a program, and whatever comes after it
changes nothing about the refusal.
-/

namespace DynImp

namespace Grammar

theorem Refusal.locate_reason (tokens : List Token) (r : Refusal) :
    (r.locate tokens).reason = r.reason := by
  rw [Refusal.locate]
  split <;> rfl

theorem Refusal.locate_offset (tokens : List Token) (r : Refusal) :
    (r.locate tokens).offset = (r.rest.head?.map Token.offset).getD (Token.endOf tokens) := by
  rw [Refusal.locate]
  cases r.rest <;> rfl

/-- What is reported is a refusal, and what it has not taken stands at the end of the tokens. -/
theorem exists_refusal {tokens : List Token} {e : ParseError}
    (h : Program.ofTokens tokens = .error e) :
    ∃ taken r, Grammar.program (tokens.length + 1) tokens = .error r ∧
      tokens = taken ++ r.rest ∧ e = r.locate tokens := by
  have hread := Reader.Reads.program (k := tokens.length) (Nat.le_succ _) (Nat.le_succ _)
  cases hprogram : Grammar.program (tokens.length + 1) tokens with
  | ok result => simp [Program.ofTokens, hprogram] at h
  | error r =>
      obtain ⟨taken, _, _, htokens, -⟩ := hread.error hprogram
      exact ⟨taken, r, rfl, htokens, by simpa [Program.ofTokens, hprogram] using h.symm⟩

/-- A refusal does not depend on the bound. -/
theorem program_error_of_bound {n m : Nat} {ts : List Token} {r : Refusal}
    (h : Grammar.program n ts = .error r) (hn : ts.length ≤ n) (hm : ts.length ≤ m) :
    Grammar.program m ts = .error r := by
  have hread := Reader.Reads.program hn hm
  obtain ⟨taken, _, _, rfl, -⟩ := hread.error h
  exact hread.again_error h ⟨Nat.le_refl _, Nat.le_refl _, rfl, rfl⟩

/-- A refusal at a token depends on nothing after the token. -/
theorem program_error_of_head {n m : Nat} {taken rest : List Token} {t : Token} {reason : Reason}
    (h : Grammar.program n (taken ++ t :: rest) = .error ⟨t :: rest, reason⟩)
    (hn : (taken ++ t :: rest).length ≤ n) (rest' : List Token)
    (hm : (taken ++ t :: rest').length ≤ m) :
    Grammar.program m (taken ++ t :: rest') = .error ⟨t :: rest', reason⟩ := by
  have hbig := program_error_of_bound h hn (Nat.le_trans hn (Nat.le_max_left n m))
  have hmax : max n m ≤ max n m := Nat.le_refl _
  refine program_error_of_bound ?_ (Nat.le_trans hm (Nat.le_max_right n m)) hm
  exact (Reader.Reads.program hmax hmax).again_error hbig
    ⟨Nat.le_trans hn (Nat.le_max_left n m), Nat.le_trans hm (Nat.le_max_right n m), rfl, rfl⟩

end Grammar

open Grammar

namespace Program

/-- **Refusals at a place.** The parser stops at the token `k`, or at the end if there is none
there. -/
structure RefusedAt (tokens : List Token) (e : ParseError) (k : Nat) : Prop where
  le : k ≤ tokens.length
  /-- This is what it has not taken. -/
  stops : Grammar.program (tokens.length + 1) tokens = .error ⟨tokens.drop k, e.reason⟩
  /-- The refusal is reported at the token there, or just past the last one. -/
  offset : e.offset = (tokens[k]?.map Token.offset).getD (Token.endOf tokens)
  /-- Whatever comes after the token there, the refusal is the same. -/
  final : k < tokens.length → ∀ others, tokens.take (k + 1) <+: others →
    Program.ofTokens others = .error e
  /-- What stands before it is the beginning of a program. -/
  viable : ∃ more p, Program.ofTokens (tokens.take k ++ more) = .ok p

/-- **Correct prefixes.** Every list of tokens that is refused is refused at the first token that no
program with this beginning goes on with. -/
theorem ofTokens_correct_prefix {tokens : List Token} {e : ParseError}
    (h : Program.ofTokens tokens = .error e) : ∃ k, RefusedAt tokens e k := by
  have hread := Reader.Reads.program (k := tokens.length) (Nat.le_succ _) (Nat.le_succ _)
  cases hprogram : Grammar.program (tokens.length + 1) tokens with
  | ok result => simp [Program.ofTokens, hprogram] at h
  | error r =>
      obtain rfl : r.locate tokens = e := by simpa [Program.ofTokens, hprogram] using h
      -- What is taken before the refusal is the beginning of a program, and its end is the place.
      obtain ⟨taken, p, more, htokens, hp⟩ := hread.error hprogram
      have hdrop : tokens.drop taken.length = r.rest := by simp [htokens]
      have htake : tokens.take taken.length = taken := by simp [htokens]
      refine ⟨taken.length, by simp [htokens], ?_, ?_, ?_, more, p, ?_⟩
      · rw [hdrop, Refusal.locate_reason]
        exact hprogram
      · rw [Refusal.locate_offset, ← hdrop, List.head?_drop]
      · intro hk others hothers
        cases r with
        | mk rest reason =>
            cases rest with
            | nil => simp [htokens] at hk
            | cons t rest =>
                obtain ⟨after, rfl⟩ := hothers
                have hhead : tokens.take (taken.length + 1) ++ after = taken ++ t :: after := by
                  simp [htokens, List.take_append, List.take_of_length_le (Nat.le_succ _)]
                rw [htokens] at hprogram
                have hafter := program_error_of_head hprogram (Nat.le_succ _) after
                  (Nat.le_succ _)
                rw [hhead, Program.ofTokens, hafter]
                rfl
      · rw [htake]
        exact ofTokens_eq_ok_iff.mpr hp

/-- The tokens of `FUN main DO END`. -/
def missingParameters : List Token :=
  [⟨.identifier, "FUN", 0⟩, ⟨.identifier, "main", 4⟩, ⟨.identifier, "DO", 9⟩,
    ⟨.identifier, "END", 12⟩]

theorem missingParameters_refused :
    Program.ofTokens missingParameters = .error ⟨9, .expected "("⟩ ∧
      ∃ k, RefusedAt missingParameters ⟨9, .expected "("⟩ k :=
  ⟨rfl, ofTokens_correct_prefix rfl⟩

end Program

end DynImp
