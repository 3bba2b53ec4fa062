import Calculator.Console.Outcome
import Calculator.Console.Usage

/-!
# The program

The program reads its command line, carries the command out and writes what it leaves behind: the
text of the standard output, the lines of the standard error and the exit code.
-/

open Calculator

/-- Writes lines to a stream. -/
def writeLines (stream : IO.FS.Stream) (lines : List Text) : IO Unit :=
  lines.forM fun line => stream.putStrLn (String.ofList line)

/-- Carries out the command line. -/
def main (words : List String) : IO UInt32 := do
  let stdout ← IO.getStdout
  let stderr ← IO.getStderr
  match Arguments.read (words.map String.toList) with
  | .ok arguments =>
      let outcome := arguments.command.run arguments.verbosity
      writeLines stderr outcome.stderr
      stdout.putStr (String.ofList outcome.stdout)
      return outcome.code.toUInt32
  | .error problem =>
      let (asked, reported) := problem.outcomeLines
      writeLines stdout asked
      writeLines stderr reported
      return problem.code.toUInt32
