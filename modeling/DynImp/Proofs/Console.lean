import DynImp.Console

/-!
# Lines answered one by one

The prompt is a loop over a state: what is still to be read, a buffer that all lines share, and
what has been written.  Nothing of it but the next line matters to an answer.

* One turn answers the next line as a prompt does that holds no other line, leaves the rest of the
  stream unread and adds its answer to what was written.
* A session is therefore the **dialogue** of its lines, and a session on two streams is one on the
  first, short of its closing, and one on the second.

A line whose program does not end is the only way out before the end of the stream: what follows
such a line is not read at all.
-/

namespace DynImp.Console

/-! ## §1 Transcripts -/

namespace Transcript

theorem append_mk (s t : Transcript) : s ++ t = ⟨s.out ++ t.out, s.err ++ t.err⟩ := rfl

@[simp] theorem append_empty (t : Transcript) : t ++ ⟨"", ""⟩ = t := by
  rw [append_mk, String.append_empty, String.append_empty]

@[simp] theorem empty_append (t : Transcript) : ⟨"", ""⟩ ++ t = t := by
  rw [append_mk, String.empty_append, String.empty_append]

theorem append_assoc (r s t : Transcript) : r ++ s ++ t = r ++ (s ++ t) := by
  simp only [append_mk, String.append_assoc]

end Transcript

/-- What is written when the stream is at its end: a last prompt, and the farewell. -/
def closing : Transcript := ⟨prompt ++ farewell, ""⟩

/-- A session after something else was written. -/
def after (t : Transcript) (x : Ending × Transcript) : Ending × Transcript := (x.1, t ++ x.2)

@[simp] theorem after_empty (x : Ending × Transcript) : after ⟨"", ""⟩ x = x := by
  rw [after, Transcript.empty_append]

theorem after_after (s t : Transcript) (x : Ending × Transcript) :
    after s (after t x) = after (s ++ t) x := by
  rw [after, after, after, Transcript.append_assoc]

/-! ## §2 Lines -/

/-- The lines of a stream, each with its line feed; only the last one can lack it. -/
def lines : List UInt8 → List (List UInt8)
  | [] => []
  | b :: rest =>
    if b = 10 then [b] :: lines rest
    else
      match lines rest with
      | [] => [[b]]
      | first :: others => (b :: first) :: others

@[simp] theorem lines_eq_nil_iff {input : List UInt8} : lines input = [] ↔ input = [] := by
  cases input with
  | nil => simp [lines]
  | cons b rest =>
    rw [lines]
    repeat' split
    all_goals simp

theorem ne_nil_of_mem_lines {input line : List UInt8} (h : line ∈ lines input) : line ≠ [] := by
  induction input generalizing line with
  | nil => cases h
  | cons b rest ih =>
    rw [lines] at h
    repeat' split at h
    all_goals grind

/-- A line feed ends a line, whatever stands on either side of it. -/
theorem lines_append (b : List UInt8) : ∀ a : List UInt8,
    lines (a ++ [10] ++ b) = lines (a ++ [10]) ++ lines b
  | [] => rfl
  | c :: a => by
    have ih := lines_append b a
    simp only [List.cons_append, lines]
    split
    · rw [ih, List.cons_append]
    · -- `c` goes in front of the first line, which the line feed has ended.
      rw [ih]
      cases first : lines (a ++ [10]) with
      | nil => simp at first
      | cons l ls => rfl

namespace Prompt

theorem lines_eq {input : List UInt8} (h : input ≠ []) :
    lines input = (splitLine input).1 :: lines (splitLine input).2 := by
  induction input with
  | nil => exact absurd rfl h
  | cons b rest ih =>
    rw [lines, splitLine]
    split
    · rfl
    · cases rest with
      | nil => rfl
      | cons c rest => rw [ih (List.cons_ne_nil _ _)]

/-- The first line of a stream is the first line of a stream that ends with it. -/
theorem splitLine_splitLine (input : List UInt8) :
    splitLine (splitLine input).1 = ((splitLine input).1, []) := by
  induction input with
  | nil => rfl
  | cons b rest ih =>
    by_cases h : b = 10
    · simp [splitLine, h]
    · simp [splitLine, h, ih]

theorem splitLine_fst_ne_nil {input : List UInt8} (h : input ≠ []) : (splitLine input).1 ≠ [] := by
  cases input with
  | nil => exact absurd rfl h
  | cons b rest =>
    rw [splitLine]
    split <;> simp

theorem splitLine_snd_length_lt {input : List UInt8} (h : input ≠ []) :
    (splitLine input).2.length < input.length := by
  have total := splitLine_length input
  have := List.length_pos_iff.2 (splitLine_fst_ne_nil h)
  omega

/-! ## §3 Turns -/

/-- **The answer to a line**, and whether the session goes on: the first turn of a prompt that
holds no other line. -/
def answer (n : Nat) (line : List UInt8) : Option Ending × Transcript :=
  let (ending, p) := (start line).turn n
  (ending, p.written)

/-- **A turn** depends on the next line alone.  It takes that line from the stream and adds the
answer to it to what was written; whatever the buffer held is lost. -/
theorem turn_eq (n : Nat) (p : Prompt) :
    (p.turn n).1 = (answer n (splitLine p.unread).1).1 ∧
    (p.turn n).2.unread = (splitLine p.unread).2 ∧
    (p.turn n).2.written = p.written ++ (answer n (splitLine p.unread).1).2 := by
  -- Both prompts read the same line, into a buffer that has just been cleared.
  simp only [answer, turn, respond, readLine, start, write_unread, splitLine_splitLine]
  cases decode? (splitLine p.unread).1 with
  | none => simp [Transcript.append_assoc]
  | some text =>
    cases (splitLine p.unread).1.length with
    | zero => simp [Transcript.append_assoc]
    | succ k => simp [Transcript.append_assoc]

theorem answer_nil (n : Nat) : answer n [] = (some .closed, closing) := rfl

/-- Only the end of the stream closes a session. -/
theorem answer_ne_closed {n : Nat} {line : List UInt8} (h : line ≠ []) :
    (answer n line).1 ≠ some .closed := by
  simp only [answer, turn, respond, readLine, write_unread, start_unread]
  cases decode? (splitLine line).1 with
  | none => simp
  | some text =>
    obtain ⟨b, first, eq⟩ := List.exists_cons_of_ne_nil (splitLine_fst_ne_nil h)
    simp only [eq, List.length_cons, endingAfter]
    split <;> simp

/-! ## §4 Sessions -/

/-- The loop takes one turn, and ends or goes on from what the turn left. -/
theorem loop_turn (n : Nat) (p : Prompt) : ∃ q : Prompt,
    q.unread = (splitLine p.unread).2 ∧
    q.written = p.written ++ (answer n (splitLine p.unread).1).2 ∧
    ((answer n (splitLine p.unread).1).1 = none → q.unread.length < p.unread.length) ∧
    p.loop n = match (answer n (splitLine p.unread).1).1 with
      | some ending => (ending, q.written)
      | none => q.loop n := by
  obtain ⟨ending, unread, written⟩ := turn_eq n p
  refine ⟨(p.turn n).2, unread, written, fun h => turn_unread_lt (Prod.ext (ending.trans h) rfl), ?_⟩
  rw [loop, ← ending]
  split <;> simp [*]

/-- What was written and what the buffer holds do not matter to the loop. -/
theorem loop_eq (n : Nat) (p : Prompt) : p.loop n = after p.written (run n p.unread) := by
  -- by the length of what is unread; the other loop is that of a prompt at its start
  induction len : p.unread.length using Nat.strongRecOn generalizing p with
  | _ k ih =>
    subst len
    obtain ⟨q, unread, written, shorter, eq⟩ := loop_turn n p
    obtain ⟨q', unread', written', -, eq'⟩ := loop_turn n (start p.unread)
    simp only [start_unread, start_written, Transcript.empty_append] at unread' written' eq'
    rw [run, eq, eq']
    cases goesOn : (answer n (splitLine p.unread).1).1 with
    | some ending => rw [after, written, written']
    | none =>
      have less := shorter goesOn
      have same : q'.unread = q.unread := unread'.trans unread.symm
      rw [ih _ less q rfl, ih _ (same ▸ less) q' rfl, same, written, written', after_after]

/-- **A session, line by line**: the answer to the first line, and then a session on the rest. -/
theorem run_eq (n : Nat) (input : List UInt8) :
    run n input =
      match answer n (splitLine input).1 with
      | (some ending, t) => (ending, t)
      | (none, t) => after t (run n (splitLine input).2) := by
  obtain ⟨q, unread, written, -, eq⟩ := loop_turn n (start input)
  simp only [start_unread, start_written, Transcript.empty_append] at unread written eq
  rw [run, eq, loop_eq, unread, written]
  rcases answer n (splitLine input).1 with ⟨_ | ending, t⟩ <;> rfl

end Prompt

/-- **Dialogue.** The lines of a stream answered in order, each on its own, up to one that ends the
session; after the last of them the stream is at its end. -/
def dialogue (answer : List UInt8 → Option Ending × Transcript) :
    List (List UInt8) → Ending × Transcript
  | [] => (.closed, closing)
  | line :: rest =>
    match answer line with
    | (some ending, t) => (ending, t)
    | (none, t) => after t (dialogue answer rest)

/-- **A session is the dialogue of its lines.** -/
theorem Prompt.run_eq_dialogue (n : Nat) (input : List UInt8) :
    run n input = dialogue (answer n) (lines input) := by
  induction len : input.length using Nat.strongRecOn generalizing input with
  | _ k ih =>
    subst len
    rw [run_eq]
    by_cases h : input = []
    · rw [h, splitLine, answer_nil, lines, dialogue]
    · rw [lines_eq h, dialogue, ih _ (splitLine_snd_length_lt h) _ rfl]

/-- Lines that others follow: either all of them are answered, and then the others as they are
alone, or one of them ends the session and the others are not looked at. -/
theorem dialogue_append {answer : List UInt8 → Option Ending × Transcript} :
    ∀ {ls : List (List UInt8)}, (∀ l ∈ ls, (answer l).1 ≠ some .closed) →
      (∃ answers, dialogue answer ls = (.closed, answers ++ closing) ∧
        ∀ ms, dialogue answer (ls ++ ms) = after answers (dialogue answer ms)) ∨
      ((dialogue answer ls).1 = .hung ∧ ∀ ms, dialogue answer (ls ++ ms) = dialogue answer ls)
  | [], _ => .inl ⟨⟨"", ""⟩, by simp [dialogue], by simp⟩
  | l :: ls, h => by
    obtain ⟨first, others⟩ := List.forall_mem_cons.1 h
    simp only [List.cons_append, dialogue]
    rcases eq : answer l with ⟨_ | _ | _, t⟩
    · -- the session goes on after `l`
      obtain ⟨answers, closed, append⟩ | ⟨hung, append⟩ := dialogue_append others
      · refine .inl ⟨t ++ answers, ?_, fun ms => ?_⟩
        · simp only [closed, after, Transcript.append_assoc]
        · simp only [append, after_after]
      · exact .inr ⟨hung, fun ms => by simp only [append]⟩
    · exact absurd (congrArg Prod.fst eq) first
    · exact .inr ⟨rfl, fun _ => rfl⟩

/-- **Each line is answered on its own.**  A session is the dialogue of its lines, in which the
answer to a line is that of a prompt that holds no other.  So on a stream that ends with a line
feed and any stream `b` after it a session writes what it writes on the first, short of its
closing, and then what it writes on `b`.  Only a program that does not end stands in the way of
that: what follows its line is not read. -/
theorem Prompt.run_memoryless (n : Nat) (a : List UInt8) :
    (∀ input, run n input = dialogue (answer n) (lines input)) ∧
    ((∃ answers, run n (a ++ [10]) = (.closed, answers ++ closing) ∧
        ∀ b, run n (a ++ [10] ++ b) = after answers (run n b)) ∨
      ((run n (a ++ [10])).1 = .hung ∧ ∀ b, run n (a ++ [10] ++ b) = run n (a ++ [10]))) := by
  refine ⟨run_eq_dialogue n, ?_⟩
  simp only [run_eq_dialogue, lines_append]
  have open_ : ∀ l ∈ lines (a ++ [10]), (answer n l).1 ≠ some .closed :=
    fun l h => answer_ne_closed (ne_nil_of_mem_lines h)
  obtain ⟨answers, closed, append⟩ | ⟨hung, append⟩ := dialogue_append open_
  · exact .inl ⟨answers, closed, fun b => append _⟩
  · exact .inr ⟨hung, fun b => append _⟩

end DynImp.Console
