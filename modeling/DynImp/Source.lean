import DynImp.Eval.Exec
import DynImp.Grammar.Program
import DynImp.Token.Scan
import DynImp.Typing.Program

/-!
# From a text to a value

The stages of a program in order: its text is scanned, read, checked and run.  The first
stage that fails ends the work and names itself in the wording of the failure.
-/

namespace DynImp

namespace Source

/-- **Failure.** The stage that failed, and how. -/
inductive Failure where
  | scan (e : Token.LexError)
  | parse (e : Grammar.ParseError)
  | type (e : Typing.TypeError)
  | run (e : Eval.Fault)
  deriving DecidableEq, Repr

/-- A message and the byte it is about. -/
def positioned (offset : Nat) (message : String) : String :=
  "offset " ++ Numeral.signedText 10 offset ++ ": " ++ message

/-- The wording of a failure. -/
def Failure.message : Failure → String
  | .scan e => "Lex error at " ++ positioned e.offset e.fault.message
  | .parse e => "Parse error at " ++ positioned e.offset e.reason.message
  | .type e => "Type error at " ++ positioned e.offset e.fault.message
  | .run e => "Runtime error: " ++ e.message

/-- The program that a text holds, unchecked. -/
def parse (text : String) : Except Failure (Program Bare) :=
  match Token.scan text with
  | .error e => .error (.scan e)
  | .ok tokens => (Program.ofTokens tokens).mapError .parse

/-- The checked program that a text holds. -/
def check (text : String) : Except Failure (Program Typed) :=
  match parse text with
  | .error e => .error e
  | .ok p => p.check.mapError .type

/-- A bound on the depth that no run within reach exceeds. -/
def depthLimit : Nat := 0x1000000000000000

/-- **Report.** How the work on a text ended, and what was printed. -/
structure Report where
  /-- The text of the value of `main`, or the failure. -/
  result : Eval.Outcome Failure String
  output : String
  deriving DecidableEq, Repr

/-- A run that ends with the text of its value. -/
def runText {ν : Notes} (n : Nat) (p : Program ν) : Eval.Run Eval.World String := do
  let v ← p.run n
  Eval.World.ask (·.text? v)

/-- **Running a text**, with a bound on the depth of the evaluation. -/
def run (n : Nat) (text : String) : Report :=
  match check text with
  | .error e => ⟨.failed e, ""⟩
  | .ok p =>
    match runText n p (.start .recording) with
    | (.done s, w) => ⟨.done s, w.output.written⟩
    | (.failed e, w) => ⟨.failed (.run e), w.output.written⟩
    | (.unfinished, w) => ⟨.unfinished, w.output.written⟩

end Source

end DynImp
