import BranchSieve.Text.Split

/-!
# Argument types of method descriptors

A method descriptor holds the encoded types of its arguments in parentheses; what stands behind
them is the result type, which is of no interest here. An argument type is a primitive type or a
class, under any number of array dimensions. Reading gives the types in order or the reason why the
arguments are no sequence of encoded types, with the place of a character that starts none.
-/

namespace BranchSieve.Descriptor

/-- The primitive types. -/
inductive Primitive where
  | boolean | byte | char | short | int | long | float | double
  deriving DecidableEq, Repr

namespace Primitive

/-- The tag that encodes a type. -/
def tag : Primitive → Char
  | .boolean => 'Z'
  | .byte => 'B'
  | .char => 'C'
  | .short => 'S'
  | .int => 'I'
  | .long => 'J'
  | .float => 'F'
  | .double => 'D'

/-- The name of a type. -/
def name : Primitive → String
  | .boolean => "boolean"
  | .byte => "byte"
  | .char => "char"
  | .short => "short"
  | .int => "int"
  | .long => "long"
  | .float => "float"
  | .double => "double"

/-- All primitive types. -/
def all : List Primitive :=
  [.boolean, .byte, .char, .short, .int, .long, .float, .double]

/-- The type that a tag encodes. -/
def ofTag? (tag : Char) : Option Primitive :=
  all.find? (·.tag == tag)

@[simp]
theorem ofTag?_tag (p : Primitive) : ofTag? p.tag = some p := by
  cases p <;> rfl

end Primitive

/-- A type without array dimensions. -/
inductive Element where
  | primitive (type : Primitive)
  /-- A class, by its internal name. -/
  | object (internalName : List Char)
  deriving DecidableEq, Repr

/-- The type of an argument. -/
structure ArgumentType where
  /-- The number of array dimensions. -/
  dims : Nat
  element : Element
  deriving DecidableEq, Repr

/-- The encoding of a type without dimensions. -/
def Element.encode : Element → List Char
  | .primitive type => [type.tag]
  | .object internalName => 'L' :: internalName ++ [';']

/-- The encoding of an argument type. -/
def ArgumentType.encode (type : ArgumentType) : List Char :=
  List.replicate type.dims '[' ++ type.element.encode

/-- The name of a type without dimensions; a class has dots for the slashes of its internal name. -/
def Element.className : Element → List Char
  | .primitive type => type.name.toList
  | .object internalName => internalName.map fun c => if c = '/' then '.' else c

/-- The name of an argument type, with a pair of brackets for each dimension. -/
def ArgumentType.className (type : ArgumentType) : String :=
  String.ofList (type.element.className ++ (List.replicate type.dims ['[', ']']).flatten)

/-- Why argument types cannot be read. -/
inductive Fault where
  /-- The text is cut short: a parenthesis, a type behind dimensions or the end of a class name is
      missing. -/
  | incomplete
  /-- No type starts with the character at an offset, which counts bytes of UTF-8. -/
  | unexpected (offset : Nat) (found : Char)
  deriving DecidableEq, Repr

/-- The number of bytes of a text in UTF-8. -/
def byteLength : List Char → Nat
  | [] => 0
  | c :: cs => c.utf8Size + byteLength cs

/-- The types that a text at an offset encodes, when `dims` dimensions stand in front of it. -/
def typesFrom (offset dims : Nat) : List Char → Except Fault (List ArgumentType)
  | [] => if dims = 0 then .ok [] else .error .incomplete
  | c :: cs =>
    if c = '[' then typesFrom (offset + 1) (dims + 1) cs
    else if c = 'L' then
      match h : Text.splitAt? [';'] cs with
      | none => .error .incomplete
      | some (name, rest) =>
        have shorter : rest.length < (c :: cs).length := by
          simp only [Text.append_of_splitAt? h, List.length_cons, List.length_append]
          omega
        (typesFrom (offset + byteLength name + 2) 0 rest).map (⟨dims, .object name⟩ :: ·)
    else
      match Primitive.ofTag? c with
      | none => .error (.unexpected offset c)
      | some type => (typesFrom (offset + 1) 0 cs).map (⟨dims, .primitive type⟩ :: ·)
termination_by cs => cs.length
decreasing_by
  · exact Nat.lt_succ_self cs.length
  · exact shorter
  · exact Nat.lt_succ_self cs.length

/-- The text between the first parenthesis, which must come first, and the next closing one. -/
def parameters? (descriptor : List Char) : Option (List Char) :=
  match descriptor with
  | '(' :: rest => (Text.splitAt? [')'] rest).map Prod.fst
  | _ => none

/-- The argument types of a method descriptor. -/
def argumentTypes (descriptor : String) : Except Fault (List ArgumentType) :=
  match parameters? descriptor.toList with
  | some parameters => typesFrom 1 0 parameters
  | none => .error .incomplete

/-- The names of the argument types of a method descriptor. -/
def argumentNames (descriptor : String) : Except Fault (List String) :=
  (argumentTypes descriptor).map (·.map ArgumentType.className)

/-- Is there a last argument, and does its type have the name? -/
def lastArgumentIs (descriptor name : String) : Bool :=
  match argumentNames descriptor with
  | .ok names => names.getLast? == some name
  | .error _ => false

/-- The first byte of a character in UTF-8, as the character with that code point. -/
def leadByte (c : Char) : Char :=
  Char.ofNat ((String.utf8EncodeChar c).headD 0).toNat

/-- What is wrong with a descriptor, in words. A character beyond ASCII shows as its first byte. -/
def Fault.message (descriptor : String) : Fault → String
  | .incomplete => s!"malformed method descriptor `{descriptor}`"
  | .unexpected offset found =>
    let byte := leadByte found
    s!"unexpected character '{byte}' at offset {offset} in `{descriptor}`"

end BranchSieve.Descriptor
