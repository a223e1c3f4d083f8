/-!
# Opcodes of the virtual machine

The opcodes that a decoded method body can hold. Short forms (`ILOAD_0`, `LDC_W`, `GOTO_W`) are
folded into their general opcode before a body is listed, so they have no constructor. Every
opcode has a row in one table, `Opcode.spec`: its mnemonic, its byte in a class file, and the
shape of its operand. The lemmas say that `Opcode.all` misses none of them and that a mnemonic
names at most one.
-/

namespace BranchSieve

/-- The shape of the operand that an opcode takes. -/
inductive OperandKind where
  /-- No operand at all. -/
  | none
  /-- An immediate integer. -/
  | int
  /-- A literal of the constant pool. -/
  | ldc
  /-- The slot of a local variable. -/
  | var
  /-- The slot of a local variable and what is added to it. -/
  | iinc
  /-- The label that is branched to. -/
  | jump
  /-- A dense table of labels. -/
  | tableSwitch
  /-- A sparse table of labels. -/
  | lookupSwitch
  /-- A field reference. -/
  | field
  /-- A method reference. -/
  | method
  /-- A call site. -/
  | invokeDynamic
  /-- The internal name of a type. -/
  | type
  /-- An array descriptor and a number of dimensions. -/
  | multiANewArray
  deriving DecidableEq, Repr, Inhabited

/-- An opcode, in the general form of its instruction. -/
inductive Opcode where
  | nop | aconstNull | iconstM1 | iconst0 | iconst1 | iconst2 | iconst3 | iconst4 | iconst5
  | lconst0 | lconst1 | fconst0 | fconst1 | fconst2 | dconst0 | dconst1 | bipush | sipush | ldc
  | iload | lload | fload | dload | aload | iaload | laload | faload | daload | aaload | baload
  | caload | saload | istore | lstore | fstore | dstore | astore | iastore | lastore | fastore
  | dastore | aastore | bastore | castore | sastore | pop | pop2 | dup | dupX1 | dupX2 | dup2
  | dup2X1 | dup2X2 | swap | iadd | ladd | fadd | dadd | isub | lsub | fsub | dsub | imul
  | lmul | fmul | dmul | idiv | ldiv | fdiv | ddiv | irem | lrem | frem | drem | ineg | lneg
  | fneg | dneg | ishl | lshl | ishr | lshr | iushr | lushr | iand | land | ior | lor | ixor
  | lxor | iinc | i2l | i2f | i2d | l2i | l2f | l2d | f2i | f2l | f2d | d2i | d2l | d2f | i2b
  | i2c | i2s | lcmp | fcmpl | fcmpg | dcmpl | dcmpg | ifeq | ifne | iflt | ifge | ifgt | ifle
  | ifIcmpeq | ifIcmpne | ifIcmplt | ifIcmpge | ifIcmpgt | ifIcmple | ifAcmpeq | ifAcmpne
  | goto | jsr | ret | tableswitch | lookupswitch | ireturn | lreturn | freturn | dreturn
  | areturn | returnVoid | getstatic | putstatic | getfield | putfield | invokevirtual
  | invokespecial | invokestatic | invokeinterface | invokedynamic | new | newarray | anewarray
  | arraylength | athrow | checkcast | instanceof | monitorenter | monitorexit | multianewarray
  | ifnull | ifnonnull
  deriving DecidableEq, Repr, Inhabited

namespace Opcode

/-- What the instruction table says about one opcode. -/
structure Spec where
  /-- The name of the opcode in a listing. -/
  mnemonic : String
  /-- The byte of the opcode in a class file. -/
  byte : UInt8
  /-- The operand that follows it. -/
  kind : OperandKind
  deriving DecidableEq, Repr

/-- The instruction table. -/
def spec : Opcode → Spec
  | .nop => ⟨"NOP", 0, .none⟩
  | .aconstNull => ⟨"ACONST_NULL", 1, .none⟩
  | .iconstM1 => ⟨"ICONST_M1", 2, .none⟩
  | .iconst0 => ⟨"ICONST_0", 3, .none⟩
  | .iconst1 => ⟨"ICONST_1", 4, .none⟩
  | .iconst2 => ⟨"ICONST_2", 5, .none⟩
  | .iconst3 => ⟨"ICONST_3", 6, .none⟩
  | .iconst4 => ⟨"ICONST_4", 7, .none⟩
  | .iconst5 => ⟨"ICONST_5", 8, .none⟩
  | .lconst0 => ⟨"LCONST_0", 9, .none⟩
  | .lconst1 => ⟨"LCONST_1", 10, .none⟩
  | .fconst0 => ⟨"FCONST_0", 11, .none⟩
  | .fconst1 => ⟨"FCONST_1", 12, .none⟩
  | .fconst2 => ⟨"FCONST_2", 13, .none⟩
  | .dconst0 => ⟨"DCONST_0", 14, .none⟩
  | .dconst1 => ⟨"DCONST_1", 15, .none⟩
  | .bipush => ⟨"BIPUSH", 16, .int⟩
  | .sipush => ⟨"SIPUSH", 17, .int⟩
  | .ldc => ⟨"LDC", 18, .ldc⟩
  | .iload => ⟨"ILOAD", 21, .var⟩
  | .lload => ⟨"LLOAD", 22, .var⟩
  | .fload => ⟨"FLOAD", 23, .var⟩
  | .dload => ⟨"DLOAD", 24, .var⟩
  | .aload => ⟨"ALOAD", 25, .var⟩
  | .iaload => ⟨"IALOAD", 46, .none⟩
  | .laload => ⟨"LALOAD", 47, .none⟩
  | .faload => ⟨"FALOAD", 48, .none⟩
  | .daload => ⟨"DALOAD", 49, .none⟩
  | .aaload => ⟨"AALOAD", 50, .none⟩
  | .baload => ⟨"BALOAD", 51, .none⟩
  | .caload => ⟨"CALOAD", 52, .none⟩
  | .saload => ⟨"SALOAD", 53, .none⟩
  | .istore => ⟨"ISTORE", 54, .var⟩
  | .lstore => ⟨"LSTORE", 55, .var⟩
  | .fstore => ⟨"FSTORE", 56, .var⟩
  | .dstore => ⟨"DSTORE", 57, .var⟩
  | .astore => ⟨"ASTORE", 58, .var⟩
  | .iastore => ⟨"IASTORE", 79, .none⟩
  | .lastore => ⟨"LASTORE", 80, .none⟩
  | .fastore => ⟨"FASTORE", 81, .none⟩
  | .dastore => ⟨"DASTORE", 82, .none⟩
  | .aastore => ⟨"AASTORE", 83, .none⟩
  | .bastore => ⟨"BASTORE", 84, .none⟩
  | .castore => ⟨"CASTORE", 85, .none⟩
  | .sastore => ⟨"SASTORE", 86, .none⟩
  | .pop => ⟨"POP", 87, .none⟩
  | .pop2 => ⟨"POP2", 88, .none⟩
  | .dup => ⟨"DUP", 89, .none⟩
  | .dupX1 => ⟨"DUP_X1", 90, .none⟩
  | .dupX2 => ⟨"DUP_X2", 91, .none⟩
  | .dup2 => ⟨"DUP2", 92, .none⟩
  | .dup2X1 => ⟨"DUP2_X1", 93, .none⟩
  | .dup2X2 => ⟨"DUP2_X2", 94, .none⟩
  | .swap => ⟨"SWAP", 95, .none⟩
  | .iadd => ⟨"IADD", 96, .none⟩
  | .ladd => ⟨"LADD", 97, .none⟩
  | .fadd => ⟨"FADD", 98, .none⟩
  | .dadd => ⟨"DADD", 99, .none⟩
  | .isub => ⟨"ISUB", 100, .none⟩
  | .lsub => ⟨"LSUB", 101, .none⟩
  | .fsub => ⟨"FSUB", 102, .none⟩
  | .dsub => ⟨"DSUB", 103, .none⟩
  | .imul => ⟨"IMUL", 104, .none⟩
  | .lmul => ⟨"LMUL", 105, .none⟩
  | .fmul => ⟨"FMUL", 106, .none⟩
  | .dmul => ⟨"DMUL", 107, .none⟩
  | .idiv => ⟨"IDIV", 108, .none⟩
  | .ldiv => ⟨"LDIV", 109, .none⟩
  | .fdiv => ⟨"FDIV", 110, .none⟩
  | .ddiv => ⟨"DDIV", 111, .none⟩
  | .irem => ⟨"IREM", 112, .none⟩
  | .lrem => ⟨"LREM", 113, .none⟩
  | .frem => ⟨"FREM", 114, .none⟩
  | .drem => ⟨"DREM", 115, .none⟩
  | .ineg => ⟨"INEG", 116, .none⟩
  | .lneg => ⟨"LNEG", 117, .none⟩
  | .fneg => ⟨"FNEG", 118, .none⟩
  | .dneg => ⟨"DNEG", 119, .none⟩
  | .ishl => ⟨"ISHL", 120, .none⟩
  | .lshl => ⟨"LSHL", 121, .none⟩
  | .ishr => ⟨"ISHR", 122, .none⟩
  | .lshr => ⟨"LSHR", 123, .none⟩
  | .iushr => ⟨"IUSHR", 124, .none⟩
  | .lushr => ⟨"LUSHR", 125, .none⟩
  | .iand => ⟨"IAND", 126, .none⟩
  | .land => ⟨"LAND", 127, .none⟩
  | .ior => ⟨"IOR", 128, .none⟩
  | .lor => ⟨"LOR", 129, .none⟩
  | .ixor => ⟨"IXOR", 130, .none⟩
  | .lxor => ⟨"LXOR", 131, .none⟩
  | .iinc => ⟨"IINC", 132, .iinc⟩
  | .i2l => ⟨"I2L", 133, .none⟩
  | .i2f => ⟨"I2F", 134, .none⟩
  | .i2d => ⟨"I2D", 135, .none⟩
  | .l2i => ⟨"L2I", 136, .none⟩
  | .l2f => ⟨"L2F", 137, .none⟩
  | .l2d => ⟨"L2D", 138, .none⟩
  | .f2i => ⟨"F2I", 139, .none⟩
  | .f2l => ⟨"F2L", 140, .none⟩
  | .f2d => ⟨"F2D", 141, .none⟩
  | .d2i => ⟨"D2I", 142, .none⟩
  | .d2l => ⟨"D2L", 143, .none⟩
  | .d2f => ⟨"D2F", 144, .none⟩
  | .i2b => ⟨"I2B", 145, .none⟩
  | .i2c => ⟨"I2C", 146, .none⟩
  | .i2s => ⟨"I2S", 147, .none⟩
  | .lcmp => ⟨"LCMP", 148, .none⟩
  | .fcmpl => ⟨"FCMPL", 149, .none⟩
  | .fcmpg => ⟨"FCMPG", 150, .none⟩
  | .dcmpl => ⟨"DCMPL", 151, .none⟩
  | .dcmpg => ⟨"DCMPG", 152, .none⟩
  | .ifeq => ⟨"IFEQ", 153, .jump⟩
  | .ifne => ⟨"IFNE", 154, .jump⟩
  | .iflt => ⟨"IFLT", 155, .jump⟩
  | .ifge => ⟨"IFGE", 156, .jump⟩
  | .ifgt => ⟨"IFGT", 157, .jump⟩
  | .ifle => ⟨"IFLE", 158, .jump⟩
  | .ifIcmpeq => ⟨"IF_ICMPEQ", 159, .jump⟩
  | .ifIcmpne => ⟨"IF_ICMPNE", 160, .jump⟩
  | .ifIcmplt => ⟨"IF_ICMPLT", 161, .jump⟩
  | .ifIcmpge => ⟨"IF_ICMPGE", 162, .jump⟩
  | .ifIcmpgt => ⟨"IF_ICMPGT", 163, .jump⟩
  | .ifIcmple => ⟨"IF_ICMPLE", 164, .jump⟩
  | .ifAcmpeq => ⟨"IF_ACMPEQ", 165, .jump⟩
  | .ifAcmpne => ⟨"IF_ACMPNE", 166, .jump⟩
  | .goto => ⟨"GOTO", 167, .jump⟩
  | .jsr => ⟨"JSR", 168, .jump⟩
  | .ret => ⟨"RET", 169, .var⟩
  | .tableswitch => ⟨"TABLESWITCH", 170, .tableSwitch⟩
  | .lookupswitch => ⟨"LOOKUPSWITCH", 171, .lookupSwitch⟩
  | .ireturn => ⟨"IRETURN", 172, .none⟩
  | .lreturn => ⟨"LRETURN", 173, .none⟩
  | .freturn => ⟨"FRETURN", 174, .none⟩
  | .dreturn => ⟨"DRETURN", 175, .none⟩
  | .areturn => ⟨"ARETURN", 176, .none⟩
  | .returnVoid => ⟨"RETURN", 177, .none⟩
  | .getstatic => ⟨"GETSTATIC", 178, .field⟩
  | .putstatic => ⟨"PUTSTATIC", 179, .field⟩
  | .getfield => ⟨"GETFIELD", 180, .field⟩
  | .putfield => ⟨"PUTFIELD", 181, .field⟩
  | .invokevirtual => ⟨"INVOKEVIRTUAL", 182, .method⟩
  | .invokespecial => ⟨"INVOKESPECIAL", 183, .method⟩
  | .invokestatic => ⟨"INVOKESTATIC", 184, .method⟩
  | .invokeinterface => ⟨"INVOKEINTERFACE", 185, .method⟩
  | .invokedynamic => ⟨"INVOKEDYNAMIC", 186, .invokeDynamic⟩
  | .new => ⟨"NEW", 187, .type⟩
  | .newarray => ⟨"NEWARRAY", 188, .int⟩
  | .anewarray => ⟨"ANEWARRAY", 189, .type⟩
  | .arraylength => ⟨"ARRAYLENGTH", 190, .none⟩
  | .athrow => ⟨"ATHROW", 191, .none⟩
  | .checkcast => ⟨"CHECKCAST", 192, .type⟩
  | .instanceof => ⟨"INSTANCEOF", 193, .type⟩
  | .monitorenter => ⟨"MONITORENTER", 194, .none⟩
  | .monitorexit => ⟨"MONITOREXIT", 195, .none⟩
  | .multianewarray => ⟨"MULTIANEWARRAY", 197, .multiANewArray⟩
  | .ifnull => ⟨"IFNULL", 198, .jump⟩
  | .ifnonnull => ⟨"IFNONNULL", 199, .jump⟩

/-- The name of the opcode in a listing. -/
def mnemonic (op : Opcode) : String := op.spec.mnemonic

/-- The byte of the opcode in a class file. -/
def byte (op : Opcode) : UInt8 := op.spec.byte

/-- The operand that the opcode takes. -/
def operandKind (op : Opcode) : OperandKind := op.spec.kind

/-- Every opcode, by ascending byte. -/
def all : List Opcode :=
  [.nop, .aconstNull, .iconstM1, .iconst0, .iconst1, .iconst2, .iconst3, .iconst4, .iconst5,
   .lconst0, .lconst1, .fconst0, .fconst1, .fconst2, .dconst0, .dconst1, .bipush, .sipush,
   .ldc, .iload, .lload, .fload, .dload, .aload, .iaload, .laload, .faload, .daload, .aaload,
   .baload, .caload, .saload, .istore, .lstore, .fstore, .dstore, .astore, .iastore, .lastore,
   .fastore, .dastore, .aastore, .bastore, .castore, .sastore, .pop, .pop2, .dup, .dupX1,
   .dupX2, .dup2, .dup2X1, .dup2X2, .swap, .iadd, .ladd, .fadd, .dadd, .isub, .lsub, .fsub,
   .dsub, .imul, .lmul, .fmul, .dmul, .idiv, .ldiv, .fdiv, .ddiv, .irem, .lrem, .frem, .drem,
   .ineg, .lneg, .fneg, .dneg, .ishl, .lshl, .ishr, .lshr, .iushr, .lushr, .iand, .land, .ior,
   .lor, .ixor, .lxor, .iinc, .i2l, .i2f, .i2d, .l2i, .l2f, .l2d, .f2i, .f2l, .f2d, .d2i, .d2l,
   .d2f, .i2b, .i2c, .i2s, .lcmp, .fcmpl, .fcmpg, .dcmpl, .dcmpg, .ifeq, .ifne, .iflt, .ifge,
   .ifgt, .ifle, .ifIcmpeq, .ifIcmpne, .ifIcmplt, .ifIcmpge, .ifIcmpgt, .ifIcmple, .ifAcmpeq,
   .ifAcmpne, .goto, .jsr, .ret, .tableswitch, .lookupswitch, .ireturn, .lreturn, .freturn,
   .dreturn, .areturn, .returnVoid, .getstatic, .putstatic, .getfield, .putfield,
   .invokevirtual, .invokespecial, .invokestatic, .invokeinterface, .invokedynamic, .new,
   .newarray, .anewarray, .arraylength, .athrow, .checkcast, .instanceof, .monitorenter,
   .monitorexit, .multianewarray, .ifnull, .ifnonnull]

/-- The opcode with the given mnemonic. Case counts. -/
def ofMnemonic? (mnemonic : String) : Option Opcode :=
  all.find? (·.mnemonic == mnemonic)

theorem mem_all (op : Opcode) : op ∈ all := by
  cases op <;> decide

theorem mnemonic_of_ofMnemonic? {s : String} {op : Opcode} (h : ofMnemonic? s = some op) :
    op.mnemonic = s := by
  simpa using List.find?_some h

/-- No two opcodes share a mnemonic, so looking one up finds the opcode itself. -/
theorem ofMnemonic?_mnemonic (op : Opcode) : ofMnemonic? op.mnemonic = some op := by
  cases op <;> decide

end Opcode

end BranchSieve
