import BranchSieve.Listing.Constant
import BranchSieve.Text.Blank

/-!
# Instruction lines

An instruction line is a label, a marker with its operands, or a mnemonic with the operands of its
kind. It is read without regard to the lines around it, so the labels of its node are still names.
A switch is read over several lines: its first line gives the kind of switch alone, and each line
after it gives a case until one gives the default.
-/

namespace BranchSieve.Listing

open Text (splitFirst words trim)

/-- The two ways to write the table of a switch. -/
inductive SwitchKind where
  /-- The keys follow one another. -/
  | table
  /-- Any keys. -/
  | lookup
  deriving DecidableEq, Repr

/-- What an instruction line gives. -/
inductive Instruction where
  /-- A whole node. -/
  | node (node : Insn String)
  /-- The start of a switch. -/
  | switch (kind : SwitchKind)
  deriving DecidableEq, Repr

/-- The name of a label is `L` with ASCII digits behind it. -/
def isLabelName : List Char → Bool
  | 'L' :: digits => digits != [] && digits.all Char.isDigit
  | _ => false

/-- The name of the label that a token mentions. -/
def readLabel (token : List Char) : Except Fault String :=
  if isLabelName token then .ok (String.ofList token)
  else .error (.notALabel (String.ofList token))

/-- The operand of a line that takes exactly one. -/
def readOneWord (operands : List Char) : Except Fault (List Char) :=
  match words operands with
  | [word] => .ok word
  | _ => .error .notOneOperand

/-- The codes of the element types that `NEWARRAY` takes by name. -/
def elementTypes : List (String × Int32) :=
  [("T_BOOLEAN", 4), ("T_CHAR", 5), ("T_FLOAT", 6), ("T_DOUBLE", 7), ("T_BYTE", 8),
   ("T_SHORT", 9), ("T_INT", 10), ("T_LONG", 11)]

/-- The immediate operand of an opcode. -/
def readImmediate (op : Opcode) (token : List Char) : Except Fault Int32 :=
  match op, elementTypes.lookup (String.ofList token) with
  | .newarray, some code => .ok code
  | _, _ => readNumber Text.int32? token

/-- The owner and the name of a member, which the last dot of its reference separates. -/
def readMember (reference : List Char) : Except Fault (String × String) :=
  match Text.splitAtLast? '.' reference with
  | some (owner, name) => .ok (String.ofList owner, String.ofList name)
  | none => .error .memberReference

/-- The node or the switch of an opcode with the given operands. -/
def readOperands (op : Opcode) (operands : List Char) : Except Fault Instruction :=
  match op.operandKind with
  | .none =>
    if words operands = [] then .ok (.node (.simple op)) else .error .unexpectedOperand
  | .int => do
    let operand ← readImmediate op (← readOneWord operands)
    return .node (.int op operand)
  | .ldc => do
    return .node (.ldc (← readConstant operands))
  | .var => do
    let slot ← readNumber Text.uint16? (← readOneWord operands)
    return .node (.var op slot)
  | .iinc =>
    match words operands with
    | [slot, increment] => do
      let slot ← readNumber Text.uint16? slot
      let increment ← readNumber Text.int16? increment
      return .node (.iinc slot increment)
    | _ => .error .incrementOperands
  | .jump => do
    let target ← readLabel (← readOneWord operands)
    return .node (.jump op target)
  | .tableSwitch =>
    if words operands = [] then .ok (.switch .table) else .error .switchOperands
  | .lookupSwitch =>
    if words operands = [] then .ok (.switch .lookup) else .error .switchOperands
  | .field =>
    match Text.splitAt? " : ".toList operands with
    | some (reference, descriptor) => do
      let (owner, name) ← readMember (trim reference)
      return .node (.field op owner name (String.ofList (trim descriptor)))
    | none => .error .fieldOperands
  | .method =>
    match words operands with
    | reference :: descriptor :: _ => do
      let (owner, name) ← readMember reference
      return .node (.method op owner name (String.ofList descriptor))
    | _ => .error .callOperands
  | .invokeDynamic =>
    match words operands with
    | name :: descriptor :: _ =>
      .ok (.node (.invokeDynamic (String.ofList name) (String.ofList descriptor)))
    | _ => .error .callSiteOperands
  | .type => do
    let descriptor ← readOneWord operands
    return .node (.type op (String.ofList descriptor))
  | .multiANewArray =>
    match words operands with
    | [descriptor, dims] => do
      let dims ← readNumber Text.uint8? dims
      return .node (.multiANewArray (String.ofList descriptor) dims)
    | _ => .error .arrayOperands

/-- The node of a line number. -/
def readLineNumber (operands : List Char) : Except Fault (Insn String) := do
  let (number, start) := splitFirst operands
  let number ← readNumber Text.uint32? number
  let start ← readLabel start
  return .line number start

/-- What an instruction line gives, from its first word and its trimmed rest. -/
def readInstruction (mnemonic operands : List Char) : Except Fault Instruction :=
  if isLabelName mnemonic && operands == [] then .ok (.node (.label (String.ofList mnemonic)))
  else if mnemonic = "LINENUMBER".toList then (readLineNumber operands).map .node
  else if mnemonic = "FRAME".toList then .ok (.node (.frame (String.ofList operands)))
  else
    match Opcode.ofMnemonic? (String.ofList mnemonic) with
    | some op => readOperands op operands
    | none => .error (.unknownOpcode (String.ofList mnemonic))

/-- What a line of a switch gives. -/
inductive Case where
  /-- A key with its label. -/
  | entry (key : Int32) (label : String)
  /-- The label for all other keys, which ends the switch. -/
  | otherwise (label : String)
  deriving DecidableEq, Repr

/-- The case that a line of a switch spells. -/
def readCase (text : List Char) : Except Fault Case :=
  match Text.splitAt? [':'] (trim text) with
  | some (key, target) => do
    let label ← readLabel (trim target)
    if trim key = "default".toList then return .otherwise label
    else return .entry (← readNumber Text.int32? (trim key)) label
  | none => .error .switchCase

end BranchSieve.Listing
