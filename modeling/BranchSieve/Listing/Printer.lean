import BranchSieve.Bytecode.Class
import BranchSieve.Listing.Constant

/-!
# Printing listings

A node is printed as the line or, for a switch, the lines that a listing spells it with. A label
is printed as `L` with its number. A class is printed as the listing that declares it: the class,
its annotations, and each method with its nodes, which stand two blanks in.
-/

namespace BranchSieve

open Text (digitsOfInt)

/-- The name of a label. -/
def Label.write (label : Label) : List Char :=
  'L' :: Nat.toDigits 10 label.id

/-- A mnemonic with operands, separated by single blanks. -/
def writeInstruction (mnemonic : String) (operands : List (List Char)) : List Char :=
  mnemonic.toList ++ operands.flatMap (' ' :: ·)

/-- The owner and the name of a member. -/
def writeMember (owner name : String) : List Char :=
  owner.toList ++ '.' :: name.toList

/-- The line of a case of a switch, or of its default, on a new line. -/
def writeCase (key : List Char) (label : Label) : List Char :=
  '\n' :: ("    ".toList ++ key ++ ": ".toList ++ label.write)

/-- The lines of a switch. -/
def writeSwitch (mnemonic : String) (cases : List (Int32 × Label)) (otherwise : Label) :
    List Char :=
  mnemonic.toList ++ cases.flatMap (fun (key, label) => writeCase (digitsOfInt key.toInt) label) ++
    writeCase "default".toList otherwise

/-- The cases of a table, whose keys count up. Behind the greatest key they go on at the least. -/
def tableCases : Int32 → List Label → List (Int32 × Label)
  | _, [] => []
  | key, label :: labels => (key, label) :: tableCases (key + 1) labels

/-- The text of a node, without blanks in front and without a line end. -/
def Insn.write : Node → List Char
  | .label l => l.write
  | .line number start =>
    writeInstruction "LINENUMBER" [Nat.toDigits 10 number.toNat, start.write]
  | .frame text => writeInstruction "FRAME" [text.toList]
  | .simple op => writeInstruction op.mnemonic []
  | .int op operand => writeInstruction op.mnemonic [digitsOfInt operand.toInt]
  | .var op slot => writeInstruction op.mnemonic [Nat.toDigits 10 slot.toNat]
  | .iinc slot increment =>
    writeInstruction Opcode.iinc.mnemonic
      [Nat.toDigits 10 slot.toNat, digitsOfInt increment.toInt]
  | .type op descriptor => writeInstruction op.mnemonic [descriptor.toList]
  | .field op owner name descriptor =>
    writeInstruction op.mnemonic [writeMember owner name, [':'], descriptor.toList]
  | .method op owner name descriptor =>
    writeInstruction op.mnemonic [writeMember owner name, descriptor.toList]
  | .invokeDynamic name descriptor =>
    writeInstruction Opcode.invokedynamic.mnemonic [name.toList, descriptor.toList]
  | .jump op target => writeInstruction op.mnemonic [target.write]
  | .ldc constant => writeInstruction Opcode.ldc.mnemonic [constant.write]
  | .tableSwitch min _ labels otherwise =>
    writeSwitch Opcode.tableswitch.mnemonic (tableCases min labels) otherwise
  | .lookupSwitch keys labels otherwise =>
    writeSwitch Opcode.lookupswitch.mnemonic (keys.zip labels) otherwise
  | .multiANewArray descriptor dims =>
    writeInstruction Opcode.multianewarray.mnemonic
      [descriptor.toList, Nat.toDigits 10 dims.toNat]

/-- The text of a node. -/
def Insn.render (node : Node) : String :=
  String.ofList node.write

/-- The lines of a method, each with its line end. -/
def Method.write (method : Method) : List Char :=
  writeInstruction "method" [method.name.toList, method.descriptor.toList] ++ '\n' ::
    (method.body.nodes.toList.flatMap fun node => ' ' :: ' ' :: node.write ++ ['\n']) ++
    "end\n".toList

/-- The lines of a class, each with its line end. -/
def ClassListing.write (listing : ClassListing) : List Char :=
  writeInstruction "class" [listing.name.toList] ++ '\n' ::
    (listing.annotations.flatMap fun type => writeInstruction "annotation" [type.toList] ++ ['\n'])
    ++ listing.methods.flatMap Method.write

/-- The listing of a class. -/
def ClassListing.render (listing : ClassListing) : String :=
  String.ofList listing.write

end BranchSieve
