import ClauseMatch.Command.Run

/-!
# The program

Performs the effects of a run.
-/

open ClauseMatch.Command in
/-- Runs the program on its command-line arguments. -/
def main (args : List String) : IO UInt32 := do
  let outcome := run args
  (← IO.getStdout).putStr outcome.stdout
  (← IO.getStderr).putStr outcome.stderr
  return UInt32.ofNat outcome.exitCode
