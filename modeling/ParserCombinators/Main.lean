import ParserCombinators.CommandLine.Report

/-!
# The command

Expressions come from the arguments, or else from standard input, which is only then read.
-/

open ParserCombinators

def main (arguments : List String) : IO UInt32 := do
  let stdin ← IO.getStdin
  let input ← if CommandLine.readsInput arguments then stdin.readToEnd else pure ""
  let report := CommandLine.command arguments input
  IO.print report.written.output
  IO.eprint report.written.errors
  for warning in report.written.warnings do
    IO.eprintln ("warning: " ++ warning)
  match report.ending with
  | .ok status => return status.toUInt32
  | .error fault =>
    IO.eprintln ((fault.message.bind CodePoints.toString?).getD "")
    return 1
