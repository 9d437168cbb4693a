import DotMatrix.CommandLine.Session

/-! The player as a program. -/
namespace DotMatrix

def attempt {α : Type} (action : IO α) : IO (Option α) := do
  try return some (← action)
  catch _ => return none

instance : Host IO where
  readFile path := attempt (IO.FS.readBinFile path)
  fileExists path := do return (← attempt (IO.FS.realPath path)).isSome
  writeFile path bytes := do return (← attempt (IO.FS.writeBinFile path bytes)).isSome
  printLine := IO.println

/-- Runs the player; a usage error gives 2, a failed run 1, and a counter that runs over ends the
program with 101. -/
def runProgram (arguments : List String) : IO UInt32 := do
  match Options.parse arguments with
  | .error error =>
    IO.eprintln error.message
    IO.eprintln usage
    return 2
  | .ok options =>
    match ← (Session.run options : ExceptT RunError IO Unit).run with
    | .ok () => return 0
    | .error (.fault fault) =>
      IO.eprintln fault.message
      return 101
    | .error error =>
      IO.eprintln ("Error: " ++ error.message)
      return 1

end DotMatrix

def main (arguments : List String) : IO UInt32 := DotMatrix.runProgram arguments
