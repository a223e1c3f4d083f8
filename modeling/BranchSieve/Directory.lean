import BranchSieve.Filter
import BranchSieve.Listing.Parser

/-!
# Reading files

A directory gives the bytes of the files that can be read in it. A listing or a configuration is
read from the text of a file, which must be UTF-8.
-/

namespace BranchSieve

/-- The bytes of the files that can be read, by path. -/
abbrev Directory := String → Option ByteArray

/-- A file that a command reads. -/
inductive InputFile where
  | listing (path : String)
  | config (path : String)
  deriving DecidableEq, Repr

/-- Where the file stands. -/
def InputFile.path : InputFile → String
  | .listing path | .config path => path

/-- Why a command fails. -/
inductive CommandError where
  /-- The file does not exist, cannot be read or is not UTF-8. -/
  | unreadableFile (file : InputFile)
  /-- The file holds no configuration. -/
  | invalidConfig (path : String)
  | unknownFilter (name : String)
  | invalidListing (error : Listing.ParseError)
  deriving DecidableEq, Repr

namespace Directory

/-- The text of a file. -/
def readText (directory : Directory) (file : InputFile) : Except CommandError String :=
  match (directory file.path).bind String.fromUTF8? with
  | some text => .ok text
  | none => .error (.unreadableFile file)

/-- The class that a file lists. -/
def readListing [Overflow] (directory : Directory) (path : String) :
    Except CommandError ClassListing := do
  let text ← directory.readText (.listing path)
  (Listing.parse text).mapError .invalidListing

/-- The configuration that a file holds. -/
def readConfig (directory : Directory) (path : String) : Except CommandError Config := do
  let text ← directory.readText (.config path)
  match Config.parse? text with
  | some config => .ok config
  | none => .error (.invalidConfig path)

end Directory

end BranchSieve
