import NamedExpr.Program
/-!
# Command line

Reads the arguments, the file that they name or the entries at the prompt, and writes what the program
says.
-/

namespace NamedExpr.Terminal

/-- Writes what a program has written. -/
def writeTranscript (t : Transcript) : IO Unit := do
  let out ← IO.getStdout
  let err ← IO.getStderr
  out.putStr t.out
  out.flush
  err.putStr t.err
  err.flush

/-- Writes what a program has written before it ended, and what it broke off with. -/
def conclude (ending : Ending) : IO UInt32 := do
  writeTranscript ending.transcript
  if let some failure := ending.uncaught? then
    writeTranscript (.reported (failure.kind.name ++ ": " ++ failure.message))
  return ending.status.toUInt32

/-- Looks at what a path leads to. -/
def lookAt (path : String) : IO Stored := do
  try
    return .text (← IO.FS.readFile path)
  catch
    | .inappropriateType .. => return .directory
    | _ => return .missing

/-- Answers the entries at the prompt until the session ends. -/
partial def serve (verbose : Bool) (c : Context) : IO UInt32 := do
  writeTranscript (.output Prompt.mark)
  let input ← IO.getStdin
  let line ← input.getLine
  match Prompt.entries line with
  | [] => conclude (.finished 0 (.printed ""))
  | entry :: _ =>
    let reply := Prompt.answer verbose c entry
    match reply.next with
    | .entry c' =>
      writeTranscript reply.transcript
      serve verbose c'
    | .ends => conclude (.finished 0 reply.transcript)
    | .breaksOff failure => conclude (.brokenOff reply.transcript failure)

end NamedExpr.Terminal

open NamedExpr Terminal in
/-- Runs the program. -/
def main (arguments : List String) : IO UInt32 := do
  match Program.plan arguments with
  | .finished ending => conclude ending
  | .script verbose c path => conclude (Program.runStored verbose c path (← lookAt path))
  | .session verbose c =>
    writeTranscript (.output Prompt.banner)
    serve verbose c
