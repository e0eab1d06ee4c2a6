/-
# The program

The outermost layer: it looks at the clock, draws a seed, reads the standard input line
by line, and writes what the command line results in.
-/

import RowFormula.CommandLine
import Std.Time.DateTime.Timestamp

namespace RowFormula.CommandLine

/-- The time that the clock shows. -/
def clockTime : IO Calendar.Instant := do
  let nanos := (← Std.Time.Timestamp.now).toNanosecondsSinceUnixEpoch.val
  pure ⟨nanos / 1000000000, (nanos % 1000000000).toNat⟩

/-- A seed that differs from run to run. -/
def freshSeed : IO UInt64 := do
  let bytes ← IO.getRandomBytes 8
  pure (UInt64.ofNat (bytes.toList.foldl (fun n b => 256 * n + b.toNat) 0))

def write (w : Written) : IO Unit := do
  let output ← IO.getStdout
  let errors ← IO.getStderr
  output.putStr w.output
  output.flush
  errors.putStr w.errors

/-- Evaluates lines of the standard input until it ends or an evaluation breaks off, and
returns the status. -/
partial def serve (s : Settings) (draws : Random.Draws) : IO Nat := do
  let line ← (← IO.getStdin).getLine
  if line.isEmpty then return 0
  let (w, draws) := (s.interpret (← clockTime) (withoutEnd line)).run draws
  write w
  if w.broken then return w.status
  serve s draws

/-- Follows the arguments, and returns the status. -/
def follow (args : List String) : IO Nat := do
  match Settings.read args with
  | .error stop =>
    let (status, w) := stopped stop
    write w
    pure status
  | .ok s =>
    if s.listsFunctions then
      write s.listing
      pure 0
    else
      let draws := s.draws (← freshSeed)
      match s.formula with
      | some formula =>
        let w := ((s.interpret (← clockTime) formula).run draws).1
        write w
        pure w.status
      | none => serve s draws

end RowFormula.CommandLine

def main (args : List String) : IO UInt32 := do
  pure (UInt32.ofNat (← RowFormula.CommandLine.follow args))
