import DynImp.Source
import DynImp.Text.Blank

/-!
# The console

What the two commands write for their input, as functions of bytes.

* **File.** A whole text is run, and the value of `main` is the last line of the output.
* **Prompt.** Every line is a program of its own.  Nothing is carried over from one line to the
  next.
-/

namespace DynImp.Console

/-- **Transcript.** What went to the output and to the error output. -/
structure Transcript where
  out : String
  err : String
  deriving DecidableEq, Repr

/-- One transcript after another. -/
def Transcript.append (a b : Transcript) : Transcript := ⟨a.out ++ b.out, a.err ++ b.err⟩

instance : Append Transcript := ⟨Transcript.append⟩

/-- The text that bytes encode, if they encode one. -/
def decode? (bytes : List UInt8) : Option String := String.fromUTF8? ⟨bytes.toArray⟩

/-- The transcript of a run and whether it ended with a value.  A failure is announced by `lead`;
a run that does not end writes no more than it printed. -/
def transcribe (lead : String) (report : Source.Report) : Transcript × Bool :=
  match report.result with
  | .done value => (⟨report.output ++ value ++ "\n", ""⟩, true)
  | .failed e => (⟨report.output, lead ++ e.message ++ "\n"⟩, false)
  | .unfinished => (⟨report.output, ""⟩, false)

/-! ## §1 File -/

/-- What announces a failure of the file command. -/
def fileLead : String := "Failed run file: "

/-- **File command.** The transcript and whether it succeeded; `none` is a file that cannot be
read. -/
def file (n : Nat) (content : Option (List UInt8)) : Transcript × Bool :=
  match content.bind decode? with
  | some text => transcribe fileLead (Source.run n text)
  | none => (⟨"", fileLead ++ "CompilerInternalError: Failed open source file\n"⟩, false)

/-! ## §2 Prompt -/

/-- What is written before a line is read. -/
def prompt : String := "> "

/-- What is written after the last line. -/
def farewell : String := "\nExited zplc repl\n"

/-- What announces a failure at the prompt. -/
def promptLead : String := "Failed run prompt: "

/-- A text without white space at either end. -/
def trim (text : String) : String :=
  let front := text.toList.dropWhile Text.isBlank
  String.ofList (front.reverse.dropWhile Text.isBlank).reverse

/-- **Ending.** How a session at the prompt is over. -/
inductive Ending where
  /-- The stream is at its end, and the farewell is written. -/
  | closed
  /-- The program of a line does not end, and nothing is read after it. -/
  | hung
  deriving DecidableEq, Repr

/-- **Loop state.** What the prompt holds between two lines. -/
structure Prompt where
  /-- What is still to be read. -/
  unread : List UInt8
  /-- The text of the line.  The same buffer is used for all lines. -/
  buffer : String
  written : Transcript

namespace Prompt

/-- A prompt before the first line of a stream. -/
def start (input : List UInt8) : Prompt := ⟨input, "", ⟨"", ""⟩⟩

@[simp] theorem start_unread (input : List UInt8) : (start input).unread = input := rfl

@[simp] theorem start_written (input : List UInt8) : (start input).written = ⟨"", ""⟩ := rfl

/-- Writes to both outputs. -/
def write (p : Prompt) (t : Transcript) : Prompt := { p with written := p.written ++ t }

@[simp] theorem write_unread (p : Prompt) (t : Transcript) : (p.write t).unread = p.unread := rfl

@[simp] theorem write_buffer (p : Prompt) (t : Transcript) : (p.write t).buffer = p.buffer := rfl

@[simp] theorem write_written (p : Prompt) (t : Transcript) :
    (p.write t).written = p.written ++ t := rfl

/-- A stream cut after its first line feed, or at its end if it has none. -/
def splitLine : List UInt8 → List UInt8 × List UInt8
  | [] => ([], [])
  | b :: rest =>
    if b = 10 then ([b], rest)
    else
      let (first, others) := splitLine rest
      (b :: first, others)

/-- Adds the next line to the buffer and gives its length in bytes.  Bytes that encode no text are
passed over as well, and leave the buffer as it is. -/
def readLine (p : Prompt) : Except String Nat × Prompt :=
  let (bytes, unread) := splitLine p.unread
  match decode? bytes with
  | some text => (.ok bytes.length, { p with unread, buffer := p.buffer ++ text })
  | none => (.error "stream did not contain valid UTF-8", { p with unread })

/-- How the prompt goes on after a program: not at all if the program does not end. -/
def endingAfter {ε α : Type} : Eval.Outcome ε α → Option Ending
  | .done _ | .failed _ => none
  | .unfinished => some .hung

/-- Reads a line and answers it; `none` asks for another line. -/
def respond (n : Nat) (p : Prompt) : Option Ending × Prompt :=
  match p.readLine with
  | (.ok 0, p) => (some .closed, p.write ⟨farewell, ""⟩)
  | (.ok _, p) =>
    let report := Source.run n (trim p.buffer)
    (endingAfter report.result, p.write (transcribe promptLead report).1)
  | (.error e, p) => (none, p.write ⟨"", "Failed read line: " ++ e ++ "\n"⟩)

/-- **One turn** of the loop. -/
def turn (n : Nat) (p : Prompt) : Option Ending × Prompt :=
  respond n ({ p with buffer := "" }.write ⟨prompt, ""⟩)

theorem splitLine_length (input : List UInt8) :
    (splitLine input).1.length + (splitLine input).2.length = input.length := by
  induction input with
  | nil => rfl
  | cons b rest ih =>
    rw [splitLine]
    split
    · simp [Nat.add_comm]
    · simp only [List.length_cons]
      omega

/-- A turn that another one follows has read something. -/
theorem turn_unread_lt {n : Nat} {p q : Prompt} (h : p.turn n = (none, q)) :
    q.unread.length < p.unread.length := by
  have total := splitLine_length p.unread
  simp only [turn, respond, readLine, write_unread] at h
  cases bytes : (splitLine p.unread).1 with
  | nil =>
    -- no bytes are an empty text, which is the end of the stream
    have : decode? [] = some "" := rfl
    simp [bytes, this] at h
  | cons b first =>
    have : q.unread = (splitLine p.unread).2 := by
      rw [bytes] at h
      split at h <;> grind [write_unread]
    rw [bytes, List.length_cons] at total
    rw [this]
    omega

/-- **The loop**, to the end of the stream or to a program that does not end. -/
def loop (n : Nat) (p : Prompt) : Ending × Transcript :=
  match _h : p.turn n with
  | (some ending, q) => (ending, q.written)
  | (none, q) => q.loop n
termination_by p.unread.length
decreasing_by exact turn_unread_lt ‹_›

/-- A whole session: how it is over, and what was written. -/
def run (n : Nat) (input : List UInt8) : Ending × Transcript := (start input).loop n

end Prompt

/-- **Prompt command.** The transcript of a whole stream. -/
def session (n : Nat) (input : List UInt8) : Transcript := (Prompt.run n input).2

end DynImp.Console
