import BranchSieve.Bytecode.Insn
import BranchSieve.Decimal.Literal
import BranchSieve.Listing.Fault
import BranchSieve.Text.Split

/-!
# Constants in listings

The operand of `LDC` shows its type by its form: a quoted text is a string, `.class` ends a type,
`L` a long and `F` a float; what has a point or a power of ten is a double, and so are NaN and the
infinities; anything else is an int.
-/

namespace BranchSieve

namespace Listing

/-- The number that a token spells. -/
def readNumber {α : Type} (read? : List Char → Option α) (token : List Char) : Except Fault α :=
  match read? token with
  | some number => .ok number
  | none => .error (.invalidNumber (String.ofList token))

/-- Does a token have the form of a double? -/
def isDoubleForm (text : List Char) : Bool :=
  text.any (fun c => c == '.' || c == 'E' || c == 'e') || text == "NaN".toList ||
    "Infinity".toList.isSuffixOf text

/-- The number that a token without quotes and without `.class` spells. -/
def readNumericConstant (text : List Char) : Except Fault Constant :=
  match Text.beforeEnding? ['L'] text with
  | some digits => (readNumber Text.int64? digits).map .long
  | none =>
    match Text.beforeEnding? ['F'] text with
    | some digits =>
      (readNumber BinaryFormat.single.read? digits).map fun bits => .float (.ofNat bits)
    | none =>
      if isDoubleForm text then
        (readNumber BinaryFormat.double.read? text).map fun bits => .double (.ofNat bits)
      else (readNumber Text.int32? text).map .int

/-- The constant that an operand spells. -/
def readConstant (text : List Char) : Except Fault Constant :=
  match text with
  | '"' :: afterQuote =>
    match Text.Quoted.readAfterQuote afterQuote with
    | .ok value => .ok (.string (String.ofList value))
    | .error fault => .error (.literal fault)
  | _ =>
    match Text.beforeEnding? ".class".toList text with
    | some descriptor => .ok (.type (String.ofList descriptor))
    | none => readNumericConstant text

end Listing

/-- The operand that spells a constant. -/
def Constant.write : Constant → List Char
  | .int value => Text.digitsOfInt value.toInt
  | .long value => Text.digitsOfInt value.toInt ++ ['L']
  | .float bits => BinaryFormat.single.write bits.toNat ++ ['F']
  | .double bits => BinaryFormat.double.write bits.toNat
  | .string value => Text.Quoted.write value.toList
  | .type descriptor => descriptor.toList ++ ".class".toList

end BranchSieve
