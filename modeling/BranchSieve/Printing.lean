import BranchSieve.Directory
import BranchSieve.Listing.Printer

/-!
# Printing as one goes

A program prints one text after the other and can come to an early end: a stage fails, or a counter
stops the program. What has been printed by then stays printed. The keys of a table are counted
while its cases are printed, and the counter is moved on before it is known that a case is left for
its number, so that it stops the program behind the last case, too.
-/

namespace BranchSieve

/-- Why a program comes to an early end. -/
inductive Interrupt where
  | failed (error : CommandError)
  | stopped
  deriving DecidableEq, Repr

/-- How the program ends for an error. -/
def CommandError.interrupt : CommandError → Interrupt
  | .invalidListing error =>
    if error.isStop then .stopped else .failed (.invalidListing error)
  | error => .failed error

/-- How a run ends. -/
inductive Ending where
  | done
  | failed (error : CommandError)
  /-- A counter stops the program. -/
  | stopped
  /-- There is nothing to run, as the command line is none. -/
  | misused
  deriving DecidableEq, Repr

/-- How a run ends and what it has printed by then. -/
structure Outcome where
  ending : Ending
  output : String
  deriving DecidableEq, Repr

namespace Outcome

/-- The run is done. -/
@[match_pattern]
def success (output : String) : Outcome := ⟨.done, output⟩

/-- The run has failed before it printed anything. -/
@[match_pattern]
def failure (error : CommandError) : Outcome := ⟨.failed error, ""⟩

/-- The exit code. -/
def exitCode (outcome : Outcome) : UInt32 :=
  match outcome.ending with
  | .done => 0
  | .failed _ => 1
  | .stopped => 101
  | .misused => 2

end Outcome

/-- A program that prints texts and can come to an early end. -/
abbrev Printing := ExceptT Interrupt (StateM String)

namespace Printing

variable {α : Type}

/-- The result of a program and what is printed in the end, given what is printed already. -/
def runFrom (printed : String) (program : Printing α) : Except Interrupt α × String :=
  (program.run.run printed).run

/-- The outcome of a program. -/
def outcome (program : Printing Unit) : Outcome :=
  match program.runFrom "" with
  | (.ok (), output) => ⟨.done, output⟩
  | (.error (.failed error), output) => ⟨.failed error, output⟩
  | (.error .stopped, output) => ⟨.stopped, output⟩

/-- Prints a text. -/
def print (text : String) : Printing Unit := modify (· ++ text)

/-- A stage that prints nothing. -/
def stage (result : Except CommandError α) : Printing α :=
  ExceptT.mk (pure (result.mapError CommandError.interrupt))

/-- Stops the program. -/
def stop : Printing Unit := throw .stopped

end Printing

open Printing

variable [Overflow]

/-- Prints the cases of a table from a key on. -/
def printCases (key : Int32) (labels : List Label) : Printing Unit :=
  if Overflow.stopsAt key then stop
  else
    match labels with
    | [] => pure ()
    | label :: labels => do
      print (String.ofList (writeCase (Text.digitsOfInt key.toInt) label))
      printCases (key + 1) labels

/-- Prints a node. -/
def printNode (node : Node) : Printing Unit :=
  match node with
  | .tableSwitch min _ labels otherwise => do
    print Opcode.tableswitch.mnemonic
    printCases min labels
    print (String.ofList (writeCase "default".toList otherwise))
  | _ => print node.render

end BranchSieve
