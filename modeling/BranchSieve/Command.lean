import BranchSieve.Execution

/-!
# Command lines

A command line names the listing, then the command and its options, each of which comes at most
once. What is told about a failed run besides its exit code is up to this layer, too.
-/

namespace BranchSieve

namespace Command

/-- Does an argument look like an option? A lone hyphen does not. -/
def isOption (arg : String) : Bool :=
  match arg.toList with
  | '-' :: _ :: _ => true
  | _ => false

/-- The value that is attached to the option `--config` or `-c`. An equals sign must separate it
    from the long name and may separate it from the short one. -/
def attachedConfig? (arg : String) : Option String :=
  match arg.toList with
  | '-' :: 'c' :: '=' :: value => some (String.ofList value)
  | '-' :: 'c' :: c :: value => some (String.ofList (c :: value))
  | '-' :: '-' :: 'c' :: 'o' :: 'n' :: 'f' :: 'i' :: 'g' :: '=' :: value =>
    some (String.ofList value)
  | _ => none

/-- Is nothing left but the mark that ends the options? -/
def isDone (args : List String) : Bool :=
  args = [] || args = ["--"]

/-- The report that the options of `filter` ask for, given what the options so far did. -/
def parseFilter? (input : String) (configPath : Option String) (asJson : Bool) :
    List String → Option Command
  | [] => some (.filter input configPath asJson)
  | arg :: args =>
    if isDone (arg :: args) then some (.filter input configPath asJson)
    else if arg = "--json" then
      if asJson then none else parseFilter? input configPath true args
    else if configPath.isSome then none
    else if arg = "--config" ∨ arg = "-c" then
      match args with
      | value :: args =>
        if isOption value then none else parseFilter? input (some value) asJson args
      | [] => none
    else
      match attachedConfig? arg with
      | some value => parseFilter? input (some value) asJson args
      | none => none

/-- The command of a command line. The names of commands are not taken as the input. -/
def parse? : List String → Option Command
  | input :: name :: args =>
    if isOption input ∨ input ∈ ["decode", "filter", "help"] then none
    else if name = "decode" then if isDone args then some (.decode input) else none
    else if name = "filter" then parseFilter? input none false args
    else none
  | _ => none

/-- The files that a command reads. -/
def files : Command → List String
  | .decode input => [input]
  | .filter input configPath _ => configPath.toList ++ [input]

end Command

/-- What is wrong, in words, but for the cause that a file is unreadable or no configuration. -/
def CommandError.message : CommandError → String
  | .unreadableFile (.listing path) => s!"could not read listing '{path}'"
  | .unreadableFile (.config path) => s!"could not read config '{path}'"
  | .invalidConfig _ => "invalid config"
  | .unknownFilter name => s!"unknown filter: {name}"
  | .invalidListing error => error.message

/-- The outcome of a command line. -/
def Outcome.ofArgs [Overflow] (directory : Directory) (args : List String) : Outcome :=
  match Command.parse? args with
  | none => ⟨.misused, ""⟩
  | some command => command.run directory

end BranchSieve
