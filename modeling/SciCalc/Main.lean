/-
  The program: reads its arguments and lines, writes notes, and ends with a code.
-/
import SciCalc.Console.Program
import Std.Time.DateTime.Timestamp

namespace SciCalc

namespace Terminal

open Console

/-- Where notes go, and which ones. -/
structure Writer where
  /-- How results are written. -/
  format : OutputFormat
  /-- The level of the journal. -/
  level : Option Journal.Level
  /-- The file of the journal. -/
  file : Option IO.FS.Handle

/-- The present moment. -/
def now : IO Journal.Moment := do
  let t ← Std.Time.Timestamp.now
  return ⟨t.toNanosecondsSinceUnixEpoch.val / 1000⟩

/-- Writes a note; a result tells how many nanoseconds it took. -/
def Writer.write (w : Writer) (elapsed : Nat) (note : Note) : IO Unit := do
  let output ← IO.getStdout
  match note with
  | .complaint text => IO.eprintln text
  | .entry e =>
    if note.isWritten w.level then
      let line := e.line (← now)
      IO.eprintln line
      if let some file := w.file then
        file.putStrLn line
        file.flush
  | .result r bound =>
    let milliseconds := Double.div (Double.ofInt elapsed) (Double.ofInt 1000000)
    output.putStr (Note.output w.format (.result { r with elapsed := milliseconds } bound))
  | note => output.putStr (note.output w.format)
  output.flush

/-- Computes something and tells how many nanoseconds it took. -/
def timed {α : Type} (compute : Unit → α) : IO (α × Nat) := do
  let start ← IO.monoNanosNow
  let a ← IO.lazyPure compute
  return (a, (← IO.monoNanosNow) - start)

/-- Answers typed lines until the user leaves or there are no more. -/
partial def Writer.session (w : Writer) (c : Console) : IO Unit := do
  w.write 0 .prompt
  let line ← (← IO.getStdin).getLine
  if line.isEmpty then w.write 0 ending
  else
    let (reply, elapsed) ← timed fun _ => c.reply line
    reply.notes.forM (w.write elapsed)
    if reply.goesOn then w.session reply.console

/-- Answers a call; the result is the code with which the program ends. -/
def answer (call : Call) : IO UInt32 := do
  let a := call.arguments
  let file ← match a.journalFile.filter (· ≠ "") with
    | some path => some <$> IO.FS.Handle.mk path .append
    | none => pure none
  let w : Writer := ⟨a.format, a.journalLevel, file⟩
  let (course, elapsed) ← timed fun _ => call.course
  match course with
  | .ends notes code =>
    notes.forM (w.write elapsed)
    return code.toUInt32
  | .opens notes c =>
    notes.forM (w.write elapsed)
    w.session c
    return 0
  | .breaksOff failure =>
    IO.eprintln failure.message
    return 1

end Terminal

end SciCalc

/-- The program. -/
def main (words : List String) : IO UInt32 := SciCalc.Terminal.answer (.ofWords words)
