import BranchSieve.Text.Quoted

/-!
# Why a listing is refused

A fault is the cause for which a single line is refused. An error of a whole listing is a fault
with its line, or a cause that no single line shows: a label that is mentioned but never placed, a
method that is not ended, a text without a class.
-/

namespace BranchSieve.Listing

/-- A line of a listing, without its line end. -/
structure Line where
  /-- The number of the line, counted from one. -/
  number : Nat
  text : String
  deriving DecidableEq, Repr

/-- The cause for which a line is refused. -/
inductive Fault where
  | duplicateClass
  | annotationBeforeClass
  | methodBeforeClass
  | endOutsideMethod
  | instructionOutsideMethod
  /-- A method line lacks the name or the descriptor. -/
  | methodOperands
  /-- There is no operand or more than one. -/
  | notOneOperand
  /-- An opcode without operands has one. -/
  | unexpectedOperand
  | incrementOperands
  | fieldOperands
  | callOperands
  | callSiteOperands
  | arrayOperands
  /-- The reference of a field or a method has no dot. -/
  | memberReference
  | labelPlacedTwice
  | notALabel (token : String)
  /-- The token is no number, or none that its type can hold. -/
  | invalidNumber (token : String)
  | literal (fault : Text.Quoted.Fault)
  | unknownOpcode (mnemonic : String)
  /-- The line that opens a switch has operands. -/
  | switchOperands
  | switchCase
  | switchWithoutDefault
  | tableWithoutCases
  | tableNotConsecutive
  /-- The counter of the keys of a table stops the program, which gives no error of its own. -/
  | keyOverflow
  deriving DecidableEq, Repr

/-- The cause for which a listing is refused. -/
inductive ParseError where
  | atLine (line : Line) (fault : Fault)
  /-- A label that is mentioned in a method but never placed there. -/
  | undefinedLabel (method label : String)
  /-- A method that is still open where the next one or the end of the text comes. -/
  | unterminatedMethod (method : String)
  | missingClass
  deriving DecidableEq, Repr

/-- What is wrong with a line, in words. -/
def Fault.message : Fault → String
  | .duplicateClass => "duplicate class"
  | .annotationBeforeClass => "annotation before class"
  | .methodBeforeClass => "method before class"
  | .endOutsideMethod => "`end` outside of a method"
  | .instructionOutsideMethod => "instruction outside of a method"
  | .methodOperands => "expected `method <name> <descriptor>`"
  | .notOneOperand => "expected exactly one operand"
  | .unexpectedOperand => "unexpected operand"
  | .incrementOperands => "expected `IINC <slot> <n>`"
  | .fieldOperands => "expected `owner.name : desc`"
  | .callOperands => "expected `owner.name desc`"
  | .callSiteOperands => "expected `name desc`"
  | .arrayOperands => "expected `desc dims`"
  | .memberReference => "expected `owner.name`"
  | .labelPlacedTwice => "label placed twice"
  | .notALabel token => s!"expected a label, found `{token}`"
  | .invalidNumber token => s!"invalid number `{token}`"
  | .literal .unterminated => "unterminated string"
  | .literal .danglingEscape => "dangling escape"
  | .literal (.unknownEscape c) => s!"unknown escape `\\{c}`"
  | .unknownOpcode mnemonic => s!"unknown opcode `{mnemonic}`"
  | .switchOperands => "switch cases go on their own lines"
  | .switchCase => "expected `key: label`"
  | .switchWithoutDefault => "switch without `default:`"
  | .tableWithoutCases => "TABLESWITCH without cases"
  | .tableNotConsecutive => "TABLESWITCH keys must be consecutive"
  | .keyOverflow => "attempt to add with overflow"

/-- What is wrong with a listing, in words. -/
def ParseError.message : ParseError → String
  | .atLine line (.unknownOpcode mnemonic) =>
    s!"unknown opcode `{mnemonic}` at line {line.number}"
  | .atLine line fault =>
    s!"listing parse error at line {line.number}: {fault.message} ⇒ `{line.text}`"
  | .undefinedLabel method label =>
    s!"label {label} is referenced in method {method} but never placed"
  | .unterminatedMethod method => s!"method {method} is missing its `end` line"
  | .missingClass => "listing does not declare a class"

/-- Does a counter stop the program, so that there is no error to tell? -/
def ParseError.isStop : ParseError → Bool
  | .atLine _ .keyOverflow => true
  | _ => false

/-- A result about a line as a result about the listing. -/
def Line.check {α : Type} (line : Line) (result : Except Fault α) : Except ParseError α :=
  result.mapError (.atLine line)

end BranchSieve.Listing
