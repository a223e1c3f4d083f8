import BranchSieve.Printing
import BranchSieve.Report

/-!
# Running commands

A command reads a listing and says what to do with it: `decode` prints the listing with indices,
`filter` reports the ranges to ignore, as a text or as JSON, under a configuration that a file may
give. A command prints line by line, and its run shows how it ended and what was printed by then.
-/

namespace BranchSieve

open Printing

/-- What to do with a listing. -/
inductive Command where
  /-- Print the nodes of every method. -/
  | decode (input : String)
  /-- Report the ranges that the filters find. -/
  | filter (input : String) (configPath : Option String) (asJson : Bool)
  deriving DecidableEq, Repr

/-- A text with blanks behind it up to a width. -/
def padRight (width : Nat) (text : String) : String :=
  text ++ String.ofList (List.replicate (width - text.length) ' ')

/-- A text with blanks in front of it up to a width. -/
def padLeft (width : Nat) (text : String) : String :=
  String.ofList (List.replicate (width - text.length) ' ') ++ text

section Loops

variable [Overflow]

/-- Prints a node with its index. -/
def printIndexedNode (node : Node) (index : Nat) : Printing Unit := do
  print (padLeft 5 (toString index) ++ "  ")
  printNode node
  print "\n"

/-- Prints a method with the indices of its nodes. -/
def Method.printIndexed (method : Method) : Printing Unit := do
  print s!"method {method.name} {method.descriptor}\n"
  method.body.nodes.toList.zipIdx.forM fun (node, index) => printIndexedNode node index
  print "end\n"

/-- Prints a class with the indices of the nodes of its methods. -/
def ClassListing.printIndexed (listing : ClassListing) : Printing Unit := do
  print s!"class {listing.name}\n"
  listing.annotations.forM fun type => print s!"annotation {type}\n"
  listing.methods.forM Method.printIndexed

/-- Prints a range with the nodes at its ends, if both exist. -/
def Body.printRange (body : Body) (range : IgnoreRange) : Printing Unit :=
  match body.get? range.first, body.get? range.last with
  | some first, some last => do
    print ("  " ++ padRight 12 range.render ++ " ")
    printNode first
    print "  ..  "
    printNode last
    print "\n"
  | _, _ => pure ()

/-- Prints what was found in a method: nothing, or a header and the ranges. -/
def Method.printReport (method : Method) (report : MethodReport) : Printing Unit :=
  if report.ranges = [] then pure ()
  else do
    let count := report.ranges.length
    let ignored := report.ignoredInstructions
    print s!"{method.name}{method.descriptor}: {count} ranges, {ignored} instructions ignored\n"
    report.ranges.forM method.body.printRange

end Loops

namespace Command

/-- The configuration that a command works under. -/
def loadConfig (directory : Directory) : Option String → Except CommandError Config
  | some path => directory.readConfig path
  | none => .ok {}

variable [Overflow]

/-- Runs a command and prints as it goes. -/
def print (directory : Directory) : Command → Printing Unit
  | .decode input => do
    let listing ← stage (directory.readListing input)
    listing.printIndexed
  | .filter input configPath asJson => do
    let config ← stage (loadConfig directory configPath)
    let filters ← stage (config.filters.mapError .unknownFilter)
    let listing ← stage (directory.readListing input)
    let report := listing.analyze filters config
    if asJson then Printing.print (report.toJson.render ++ "\n")
    else (listing.methods.zip report.methods).forM fun (method, found) => method.printReport found

/-- The outcome of a command. -/
def run (directory : Directory) (command : Command) : Outcome :=
  (command.print directory).outcome

end Command

end BranchSieve
