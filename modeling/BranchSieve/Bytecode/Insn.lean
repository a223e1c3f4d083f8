import BranchSieve.Bytecode.Opcode
import BranchSieve.Decimal.Binary

/-!
# Nodes of a method body

A method body is a sequence of nodes. Most nodes carry an opcode with its operand; labels, line
numbers and stack map frames are markers without an opcode. `Insn ℓ` is a node whose labels are of
type `ℓ`: the names that a listing spells, or the numbers of a finished body. `Insn.mapLabels`
exchanges the labels of a node, and `Insn.labels` lists them in the order in which a listing
mentions them.
-/

namespace BranchSieve

/-- A label of a method body, by its number. -/
structure Label where
  id : Nat
  deriving DecidableEq, Repr

/-- A literal of the constant pool. -/
inductive Constant where
  | int (value : Int32)
  | long (value : Int64)
  /-- A number of the format `BinaryFormat.single`, by its bits. -/
  | float (bits : UInt32)
  /-- A number of the format `BinaryFormat.double`, by its bits. -/
  | double (bits : UInt64)
  | string (value : String)
  /-- A class, by its type descriptor. -/
  | type (descriptor : String)
  deriving DecidableEq, Repr

/-- Equality of constants as values: floating point numbers are compared as numbers, so NaN differs
    from itself and the zeros are equal. -/
def Constant.sameValue : Constant → Constant → Bool
  | .float a, .float b => BinaryFormat.single.sameNumber a.toNat b.toNat
  | .double a, .double b => BinaryFormat.double.sameNumber a.toNat b.toNat
  | a, b => a = b

/-- A node of a method body with labels of type `ℓ`. -/
inductive Insn (ℓ : Type) where
  /-- The place of a label. -/
  | label (label : ℓ)
  /-- The source line of the code from a label on. -/
  | line (number : UInt32) (start : ℓ)
  /-- A stack map frame, which is kept as text. -/
  | frame (text : String)
  /-- An instruction without operand. -/
  | simple (opcode : Opcode)
  /-- An instruction with an immediate integer. -/
  | int (opcode : Opcode) (operand : Int32)
  /-- An instruction on a local variable. -/
  | var (opcode : Opcode) (slot : UInt16)
  /-- The addition of an integer to a local variable. -/
  | iinc (slot : UInt16) (increment : Int16)
  /-- An instruction on a type, which is given by its internal name. -/
  | type (opcode : Opcode) (descriptor : String)
  /-- An instruction on a field. -/
  | field (opcode : Opcode) (owner name descriptor : String)
  /-- A call of a method. -/
  | method (opcode : Opcode) (owner name descriptor : String)
  /-- A call through a call site. -/
  | invokeDynamic (name descriptor : String)
  /-- A branch. -/
  | jump (opcode : Opcode) (target : ℓ)
  /-- The load of a constant. -/
  | ldc (constant : Constant)
  /-- A jump by a dense table: the labels belong to the keys from `min` on. -/
  | tableSwitch (min max : Int32) (labels : List ℓ) (otherwise : ℓ)
  /-- A jump by a table of keys. -/
  | lookupSwitch (keys : List Int32) (labels : List ℓ) (otherwise : ℓ)
  /-- The creation of an array of arrays. -/
  | multiANewArray (descriptor : String) (dims : UInt8)
  deriving DecidableEq, Repr

namespace Insn

variable {ℓ ℓ' : Type}

/-- The opcode of a node, if it is no marker. -/
def opcode? : Insn ℓ → Option Opcode
  | .label _ | .line _ _ | .frame _ => none
  | .simple op | .int op _ | .var op _ | .type op _ | .field op _ _ _ | .method op _ _ _
  | .jump op _ => some op
  | .iinc _ _ => some .iinc
  | .invokeDynamic _ _ => some .invokedynamic
  | .ldc _ => some .ldc
  | .tableSwitch _ _ _ _ => some .tableswitch
  | .lookupSwitch _ _ _ => some .lookupswitch
  | .multiANewArray _ _ => some .multianewarray

/-- Is the node a marker? -/
def isMarker (node : Insn ℓ) : Bool := node.opcode?.isNone

/-- The labels that a node mentions; in a switch those of the cases stand first. -/
def labels : Insn ℓ → List ℓ
  | .label l | .line _ l | .jump _ l => [l]
  | .tableSwitch _ _ cases otherwise | .lookupSwitch _ cases otherwise => cases ++ [otherwise]
  | _ => []

/-- The node with other labels. -/
def mapLabels (f : ℓ → ℓ') : Insn ℓ → Insn ℓ'
  | .label l => .label (f l)
  | .line number start => .line number (f start)
  | .frame text => .frame text
  | .simple op => .simple op
  | .int op operand => .int op operand
  | .var op slot => .var op slot
  | .iinc slot increment => .iinc slot increment
  | .type op descriptor => .type op descriptor
  | .field op owner name descriptor => .field op owner name descriptor
  | .method op owner name descriptor => .method op owner name descriptor
  | .invokeDynamic name descriptor => .invokeDynamic name descriptor
  | .jump op target => .jump op (f target)
  | .ldc constant => .ldc constant
  | .tableSwitch min max labels otherwise => .tableSwitch min max (labels.map f) (f otherwise)
  | .lookupSwitch keys labels otherwise => .lookupSwitch keys (labels.map f) (f otherwise)
  | .multiANewArray descriptor dims => .multiANewArray descriptor dims

/-- Equality of nodes with constants compared as values. -/
def sameValue [DecidableEq ℓ] : Insn ℓ → Insn ℓ → Bool
  | .ldc a, .ldc b => a.sameValue b
  | a, b => a = b

@[simp]
theorem opcode?_mapLabels (f : ℓ → ℓ') (node : Insn ℓ) :
    (node.mapLabels f).opcode? = node.opcode? := by
  cases node <;> rfl

@[simp]
theorem isMarker_mapLabels (f : ℓ → ℓ') (node : Insn ℓ) :
    (node.mapLabels f).isMarker = node.isMarker := by
  simp [isMarker]

@[simp]
theorem labels_mapLabels (f : ℓ → ℓ') (node : Insn ℓ) :
    (node.mapLabels f).labels = node.labels.map f := by
  cases node <;> simp [mapLabels, labels]

end Insn

/-- A node of a finished body. -/
abbrev Node := Insn Label

end BranchSieve
