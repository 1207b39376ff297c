import DotPath.Command

/-!
# The program

Reads standard input to its end, and writes what `Outcome.ofRun` says, unless the run aborts.
-/

/-- Runs the program with its arguments. -/
def main (arguments : List String) : IO UInt32 := do
  let input ← (← IO.getStdin).readBinToEnd
  let arguments := arguments.map String.toList
  if DotPath.Outcome.aborts .full arguments input then
    return DotPath.Outcome.abortStatus.toUInt32
  let outcome := DotPath.Outcome.ofRun arguments input
  (← IO.getStdout).putStr (String.ofList outcome.output)
  (← IO.getStderr).putStr (String.ofList outcome.errors)
  return outcome.status.toUInt32
