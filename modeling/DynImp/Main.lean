import DynImp.Console

/-!
# Command line

`file PATH` runs a program, `repl` reads programs line by line.
-/

namespace DynImp

/-- Writes a transcript. -/
def writeTranscript (t : Console.Transcript) : IO Unit := do
  let out ← IO.getStdout
  let err ← IO.getStderr
  out.putStr t.out
  out.flush
  err.putStr t.err

/-- Everything up to and with the next line feed. -/
partial def readLine (stream : IO.FS.Stream) (acc : List UInt8) : IO (List UInt8) := do
  let bytes ← stream.read 1
  match bytes.toList with
  | [] => return acc.reverse
  | b :: _ => if b = 10 then return (b :: acc).reverse else readLine stream (b :: acc)

/-- Answers lines until the session is over. -/
partial def answerLines (stream : IO.FS.Stream) : IO Unit := do
  writeTranscript ⟨Console.prompt, ""⟩
  let bytes ← readLine stream []
  let (ending, prompt) := (Console.Prompt.start bytes).respond Source.depthLimit
  writeTranscript prompt.written
  if ending.isNone then answerLines stream

/-- The bytes of a file, if it can be read. -/
def readContent (path : String) : IO (Option (List UInt8)) := do
  try
    let bytes ← IO.FS.readBinFile path
    return some bytes.toList
  catch _ => return none

end DynImp

/-- The command line. -/
def main (args : List String) : IO UInt32 := do
  match args with
  | ["file", path] =>
    let content ← DynImp.readContent path
    let (transcript, succeeded) := DynImp.Console.file DynImp.Source.depthLimit content
    DynImp.writeTranscript transcript
    return if succeeded then 0 else 1
  | ["repl"] =>
    DynImp.answerLines (← IO.getStdin)
    return 0
  | _ =>
    (← IO.getStderr).putStrLn "Usage: file PATH | repl"
    return 2
