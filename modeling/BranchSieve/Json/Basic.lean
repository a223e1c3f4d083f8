import BranchSieve.Json.CodePoint

/-!
# JSON values

A value keeps what its text shows: the members of an object in their order, repeated keys included,
the digits of a number, so that numbers of any size are held, and the code points of a string.
`Json.pretty` prints a value over several lines, two blanks further in at each level.
-/

namespace BranchSieve

/-- A JSON value. -/
inductive Json where
  | null
  | bool (value : Bool)
  /-- A number, by its text. -/
  | number (text : List Char)
  | string (points : List CodePoint)
  | array (elements : List Json)
  | object (members : List (List CodePoint × Json))
  deriving Repr

namespace Json

/-- The escape of a unit of UTF-16. -/
def unicodeEscape (unit : Nat) : List Char :=
  '\\' :: 'u' :: [4096, 256, 16, 1].map fun place => Nat.digitChar (unit / place % 16)

/-- The written form of a character of a string. -/
def writeChar (c : Char) : List Char :=
  match c with
  | '"' => ['\\', '"']
  | '\\' => ['\\', '\\']
  | '\x08' => ['\\', 'b']
  | '\t' => ['\\', 't']
  | '\n' => ['\\', 'n']
  | '\x0c' => ['\\', 'f']
  | '\r' => ['\\', 'r']
  | c => if c.toNat < 0x20 then unicodeEscape c.toNat else [c]

/-- The written form of a code point of a string. -/
def writeCodePoint : CodePoint → List Char
  | .char c => writeChar c
  | .surrogate unit => unicodeEscape unit

/-- The written form of a string. -/
def writeString (points : List CodePoint) : List Char :=
  '"' :: points.flatMap writeCodePoint ++ ['"']

/-- A line end and the blanks in front of a line at a level. -/
def newline (level : Nat) : List Char :=
  '\n' :: List.replicate (2 * level) ' '

mutual

/-- The text of a value whose first line stands at a level. -/
def pretty (level : Nat) : Json → List Char
  | .null => "null".toList
  | .bool true => "true".toList
  | .bool false => "false".toList
  | .number text => text
  | .string points => writeString points
  | .array [] => ['[', ']']
  | .array (element :: elements) =>
    '[' :: newline (level + 1) ++ pretty (level + 1) element ++
      prettyElements (level + 1) elements ++ newline level ++ [']']
  | .object [] => ['\x7b', '\x7d']
  | .object ((key, value) :: members) =>
    '\x7b' :: newline (level + 1) ++ writeString key ++ [':', ' '] ++ pretty (level + 1) value ++
      prettyMembers (level + 1) members ++ newline level ++ ['\x7d']

/-- The texts of the elements behind the first one. -/
def prettyElements (level : Nat) : List Json → List Char
  | [] => []
  | element :: elements =>
    ',' :: newline level ++ pretty level element ++ prettyElements level elements

/-- The texts of the members behind the first one. -/
def prettyMembers (level : Nat) : List (List CodePoint × Json) → List Char
  | [] => []
  | (key, value) :: members =>
    ',' :: newline level ++ writeString key ++ [':', ' '] ++ pretty level value ++
      prettyMembers level members

end

/-- The string of a text. -/
def ofString (text : String) : Json := .string (CodePoint.ofString text)

/-- The object whose members have texts as keys. -/
def ofMembers (members : List (String × Json)) : Json :=
  .object (members.map fun (key, value) => (CodePoint.ofString key, value))

/-- A whole number. -/
def ofNat (n : Nat) : Json := .number (Nat.toDigits 10 n)

/-- The text of a value over several lines. -/
def render (value : Json) : String := String.ofList (value.pretty 0)

end Json

end BranchSieve
