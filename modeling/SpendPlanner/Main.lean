import SpendPlanner.CommandLine.Answer
import SpendPlanner.Files

/-!
# The program

Reads the files that a command line names, prints the answer on standard output, and what
goes wrong, together with the log, on standard error.
-/

namespace SpendPlanner.CommandLine

/-- The failure of reading a file, if it is one that has a text.  The system gives the number
of an error plain or negated. -/
def fileError? : IO.Error → Option FileError
  | .noFileOrDirectory .. => some .notFound
  | .permissionDenied .. => some .permissionDenied
  | .inappropriateType _ code _ =>
    some (if min code (0 - code) = 20 then .notADirectory else .isADirectory)
  | .invalidArgument _ code _ => if min code (0 - code) = 36 then some .nameTooLong else none
  | _ => none

/-- The text of the file at a path. -/
def readText (path : String) : IO (Except FileError String) := do
  try
    return utf8Text (← IO.FS.readBinFile path).toList
  catch error =>
    match fileError? error with
    | some failure => return .error failure
    | none => throw error

/-- How the program is used. -/
def usage : String :=
  "usage: spend-planner [--config PATH] [--records PATH] [--token N] [--level LEVEL] " ++
    "[--reveal-amounts] transferable | fee AMOUNT | defrag AMOUNT | sweep"

/-- Runs a command line and gives the code that the program exits with. -/
def run (arguments : List String) : IO UInt32 := do
  match Arguments.parse? arguments with
  | none =>
    IO.eprintln usage
    return 2
  | some arguments =>
    let configText ← arguments.configPath.mapM readText
    let recordsText ← readText arguments.recordsPath
    let (outcome, log) := answer arguments configText recordsText
    for line in log do
      if line.severity ≠ .debug then
        IO.eprintln (line.text arguments.revealAmounts)
    match outcome with
    | .ok answer =>
      IO.println answer.text
      return 0
    | .error error =>
      IO.eprintln ("Error: " ++ error.message)
      return 1

end SpendPlanner.CommandLine

def main (arguments : List String) : IO UInt32 := SpendPlanner.CommandLine.run arguments
