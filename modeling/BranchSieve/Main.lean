import BranchSieve.Command

/-!
# The program

The files that a command reads are loaded first; then the command runs on their contents. Counters
wrap in this program.
-/

namespace BranchSieve

/-- The bytes of a file, if it can be read. -/
def loadFile? (path : String) : IO (Option ByteArray) := do
  try
    return some (← IO.FS.readBinFile path)
  catch _ =>
    return none

/-- What is told about the end of a run. -/
def Ending.diagnostic : Ending → String
  | .done => ""
  | .failed error => s!"Error: {error.message}\n"
  | .stopped => "attempt to add with overflow\n"
  | .misused =>
    "Usage: branchsieve <input> decode\n" ++
      "       branchsieve <input> filter [-c|--config FILE] [--json]\n"

end BranchSieve

open BranchSieve in
/-- Runs a command line: prints its output and what is told about its end, and gives the exit
    code. -/
def main (args : List String) : IO UInt32 := do
  let paths := ((Command.parse? args).map Command.files).getD []
  let contents ← paths.mapM fun path => do
    return (path, ← loadFile? path)
  let outcome := @Outcome.ofArgs .wraps (fun path => (contents.lookup path).join) args
  IO.print outcome.output
  IO.eprint outcome.ending.diagnostic
  return outcome.exitCode
