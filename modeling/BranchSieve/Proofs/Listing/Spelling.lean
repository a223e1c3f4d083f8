import BranchSieve.Proofs.Listing.ConstantSpelling

/-!
# What a line spells

The reader of a line and the grammar agree: a line is read as a node, as the start of a switch, or
as a case exactly if it spells it.
-/

namespace BranchSieve.Listing

open Text (isBlank splitFirst trim words)

/-! ## Operands -/

theorem readLabel_eq_ok_iff {token : List Char} {label : String} :
    readLabel token = .ok label ↔ isLabelName token = true ∧ label = String.ofList token := by
  unfold readLabel
  split
  · next isName => simp [isName, eq_comm]
  · next isNot => simp [isNot]

theorem readOneWord_eq_ok_iff {operands word : List Char} :
    readOneWord operands = .ok word ↔ words operands = [word] := by
  unfold readOneWord
  split
  · next one => simp [one]
  · next other => simpa using other word

theorem lookup_elementTypes_eq_some_iff {name : String} {code : Int32} :
    elementTypes.lookup name = some code ↔ (name, code) ∈ elementTypes := by
  constructor
  · intro h
    obtain ⟨front, back, split, -⟩ := List.lookup_eq_some_iff.1 h
    simp [split]
  · intro mem
    simp only [elementTypes, List.mem_cons, Prod.mk.injEq, List.not_mem_nil, or_false] at mem
    rcases mem with ⟨rfl, rfl⟩ | ⟨rfl, rfl⟩ | ⟨rfl, rfl⟩ | ⟨rfl, rfl⟩ | ⟨rfl, rfl⟩ | ⟨rfl, rfl⟩ |
      ⟨rfl, rfl⟩ | ⟨rfl, rfl⟩ <;> rfl

/-- The name of a type is no number. -/
theorem int32?_eq_none_of_mem_elementTypes {token : List Char} {code : Int32}
    (h : (String.ofList token, code) ∈ elementTypes) : Text.int32? token = none := by
  cases read : Text.int32? token with
  | none => rfl
  | some number =>
    have digit := (Text.all_isIntegerChar_of_int32? read).2
    have underscore : '_' ∈ token := by
      simp only [elementTypes, List.mem_cons, Prod.mk.injEq, List.not_mem_nil, or_false] at h
      have names : ∀ name : String, String.ofList token = name → token = name.toList := by
        intro _ equal
        subst equal
        simp
      rcases h with ⟨same, -⟩ | ⟨same, -⟩ | ⟨same, -⟩ | ⟨same, -⟩ | ⟨same, -⟩ | ⟨same, -⟩ |
        ⟨same, -⟩ | ⟨same, -⟩ <;> rw [names _ same] <;> decide
    exact absurd (digit '_' underscore) (by decide)

theorem readImmediate_eq_ok_iff {op : Opcode} {token : List Char} {operand : Int32} :
    readImmediate op token = .ok operand ↔ SpellsImmediate op token operand := by
  unfold readImmediate SpellsImmediate
  split
  · next code found =>
    have noNumber := int32?_eq_none_of_mem_elementTypes (lookup_elementTypes_eq_some_iff.1 found)
    rw [← lookup_elementTypes_eq_some_iff, found, noNumber]
    simp
  · next other =>
    rw [readNumber_eq_ok_iff]
    constructor
    · exact .inr
    · intro h
      rcases h with ⟨rfl, mem⟩ | number
      · exact absurd (lookup_elementTypes_eq_some_iff.2 mem) (other operand rfl)
      · exact number

theorem readMember_eq_ok_iff {reference : List Char} {member : String × String} :
    readMember reference = .ok member ↔
      ∃ owner name, reference = owner ++ '.' :: name ∧ '.' ∉ name ∧
        member = (String.ofList owner, String.ofList name) := by
  unfold readMember
  constructor
  · intro h
    split at h
    · next owner name cut =>
      obtain ⟨split, last⟩ := Text.splitAtLast?_eq_some_iff.1 cut
      exact ⟨owner, name, split, last, (Except.ok.inj h).symm⟩
    · simp at h
  · intro given
    rcases given with ⟨owner, name, split, last, rfl⟩
    rw [Text.splitAtLast?_eq_some_iff.2 ⟨split, last⟩]

section Kinds

variable {op : Opcode} {operands : List Char} {node : Insn String}

theorem readOperands_iinc_iff (kind : op.operandKind = .iinc) :
    readOperands op operands = .ok (.node node) ↔ SpellsOperands op operands node := by
  rw [readOperands, SpellsOperands, kind]
  dsimp only
  split
  · next first second two =>
    simp only [bind_eq_ok_iff, pure_eq_ok_iff, readNumber_eq_ok_iff, Instruction.node.injEq, two,
      List.cons.injEq, and_true]
    constructor
    · intro h
      rcases h with ⟨slot, isSlot, increment, isIncrement, rfl⟩
      exact ⟨first, second, slot, increment, ⟨rfl, rfl⟩, isSlot, isIncrement, rfl⟩
    · intro h
      rcases h with ⟨_, _, slot, increment, ⟨rfl, rfl⟩, isSlot, isIncrement, rfl⟩
      exact ⟨slot, isSlot, increment, isIncrement, rfl⟩
  · next other =>
    apply iff_of_false (by simp)
    intro h
    rcases h with ⟨first, second, _, _, two, -⟩
    exact other first second two

theorem readOperands_multiANewArray_iff (kind : op.operandKind = .multiANewArray) :
    readOperands op operands = .ok (.node node) ↔ SpellsOperands op operands node := by
  rw [readOperands, SpellsOperands, kind]
  dsimp only
  split
  · next descriptor token two =>
    simp only [bind_eq_ok_iff, pure_eq_ok_iff, readNumber_eq_ok_iff, Instruction.node.injEq, two,
      List.cons.injEq, and_true]
    constructor
    · intro h
      rcases h with ⟨dims, isDims, rfl⟩
      exact ⟨descriptor, token, dims, ⟨rfl, rfl⟩, isDims, rfl⟩
    · intro h
      rcases h with ⟨_, _, dims, ⟨rfl, rfl⟩, isDims, rfl⟩
      exact ⟨dims, isDims, rfl⟩
  · next other =>
    apply iff_of_false (by simp)
    intro h
    rcases h with ⟨descriptor, token, _, two, -⟩
    exact other descriptor token two

theorem readOperands_field_iff (kind : op.operandKind = .field) :
    readOperands op operands = .ok (.node node) ↔ SpellsOperands op operands node := by
  rw [readOperands, SpellsOperands, kind]
  dsimp only
  split
  · next reference descriptor cut =>
    simp only [bind_eq_ok_iff, pure_eq_ok_iff, readMember_eq_ok_iff, Instruction.node.injEq]
    constructor
    · intro h
      rcases h with ⟨_, ⟨owner, name, split, last, rfl⟩, rfl⟩
      exact ⟨reference, descriptor, owner, name, cut, split, last, rfl⟩
    · intro h
      rcases h with ⟨_, _, owner, name, cut', split, last, rfl⟩
      obtain ⟨rfl, rfl⟩ := Prod.mk.inj (Option.some.inj (cut.symm.trans cut'))
      exact ⟨_, ⟨owner, name, split, last, rfl⟩, rfl⟩
  · next uncut =>
    apply iff_of_false (by simp)
    intro h
    rcases h with ⟨_, _, _, _, cut, -⟩
    exact absurd (uncut.symm.trans cut) (by simp)

theorem readOperands_method_iff (kind : op.operandKind = .method) :
    readOperands op operands = .ok (.node node) ↔ SpellsOperands op operands node := by
  rw [readOperands, SpellsOperands, kind]
  dsimp only
  split
  · next reference descriptor others cut =>
    simp only [bind_eq_ok_iff, pure_eq_ok_iff, readMember_eq_ok_iff, Instruction.node.injEq, cut]
    constructor
    · intro h
      rcases h with ⟨_, ⟨owner, name, rfl, last, rfl⟩, rfl⟩
      exact ⟨owner, name, descriptor, others, rfl, last, rfl⟩
    · intro h
      rcases h with ⟨owner, name, _, _, same, last, rfl⟩
      obtain ⟨rfl, rfl, -⟩ : reference = owner ++ '.' :: name ∧ descriptor = _ ∧ others = _ := by
        simpa using same
      exact ⟨_, ⟨owner, name, rfl, last, rfl⟩, rfl⟩
  · next uncut =>
    apply iff_of_false (by simp)
    intro h
    rcases h with ⟨owner, name, descriptor, others, cut, -⟩
    exact uncut _ _ _ cut

theorem readOperands_invokeDynamic_iff (kind : op.operandKind = .invokeDynamic) :
    readOperands op operands = .ok (.node node) ↔ SpellsOperands op operands node := by
  rw [readOperands, SpellsOperands, kind]
  dsimp only
  split
  · next name descriptor others cut =>
    simp only [Except.ok.injEq, Instruction.node.injEq, cut, List.cons.injEq]
    constructor
    · intro same
      subst same
      exact ⟨name, descriptor, others, ⟨rfl, rfl, rfl⟩, rfl⟩
    · intro h
      rcases h with ⟨_, _, _, ⟨rfl, rfl, rfl⟩, rfl⟩
      rfl
  · next uncut =>
    apply iff_of_false (by simp)
    intro h
    rcases h with ⟨name, descriptor, others, cut, -⟩
    exact uncut _ _ _ cut

/-- A kind with one operand, which a reader of its own takes. -/
theorem bind_readOneWord_eq_ok_iff {α : Type} {read : List Char → Except Fault α}
    {make : α → Insn String} :
    (do let value ← read (← readOneWord operands)
        return Instruction.node (make value)) = .ok (.node node) ↔
      ∃ token value, words operands = [token] ∧ read token = .ok value ∧ node = make value := by
  simp only [bind_eq_ok_iff, pure_eq_ok_iff, readOneWord_eq_ok_iff, Instruction.node.injEq]
  constructor
  · intro h
    rcases h with ⟨token, one, value, reads, rfl⟩
    exact ⟨token, value, one, reads, rfl⟩
  · intro h
    rcases h with ⟨token, value, one, reads, rfl⟩
    exact ⟨token, one, value, reads, rfl⟩

/-- The operands of an opcode are read as the node that they spell. -/
theorem readOperands_eq_ok_node_iff :
    readOperands op operands = .ok (.node node) ↔ SpellsOperands op operands node := by
  cases kind : op.operandKind with
  | none =>
    rw [readOperands, SpellsOperands, kind]
    dsimp only
    split
    · next bare => simp [bare, eq_comm]
    · next other => simp [other]
  | int =>
    rw [readOperands, SpellsOperands, kind]
    dsimp only
    rw [bind_readOneWord_eq_ok_iff]
    simp only [readImmediate_eq_ok_iff]
  | ldc =>
    rw [readOperands, SpellsOperands, kind]
    simp only [bind_eq_ok_iff, pure_eq_ok_iff, readConstant_eq_ok_iff, Instruction.node.injEq]
    simp only [eq_comm]
  | var =>
    rw [readOperands, SpellsOperands, kind]
    dsimp only
    rw [bind_readOneWord_eq_ok_iff]
    simp only [readNumber_eq_ok_iff]
  | jump =>
    rw [readOperands, SpellsOperands, kind]
    dsimp only
    rw [bind_readOneWord_eq_ok_iff]
    simp only [readLabel_eq_ok_iff]
    constructor
    · intro h
      rcases h with ⟨target, _, one, ⟨isName, rfl⟩, rfl⟩
      exact ⟨target, one, isName, rfl⟩
    · intro h
      rcases h with ⟨target, one, isName, rfl⟩
      exact ⟨target, _, one, ⟨isName, rfl⟩, rfl⟩
  | tableSwitch =>
    rw [readOperands, SpellsOperands, kind]
    dsimp only
    split <;> simp
  | lookupSwitch =>
    rw [readOperands, SpellsOperands, kind]
    dsimp only
    split <;> simp
  | type =>
    rw [readOperands, SpellsOperands, kind]
    simp only [bind_eq_ok_iff, pure_eq_ok_iff, readOneWord_eq_ok_iff, Instruction.node.injEq]
    simp only [eq_comm]
  | iinc => exact readOperands_iinc_iff kind
  | field => exact readOperands_field_iff kind
  | method => exact readOperands_method_iff kind
  | invokeDynamic => exact readOperands_invokeDynamic_iff kind
  | multiANewArray => exact readOperands_multiANewArray_iff kind

end Kinds

/-- The two switches are the opcodes with a kind of operands of their own. -/
theorem operandKind_eq_switch_iff {op : Opcode} :
    (op.operandKind = .tableSwitch ↔ op = .tableswitch) ∧
      (op.operandKind = .lookupSwitch ↔ op = .lookupswitch) := by
  have table : (Opcode.all.all fun op =>
      (op.operandKind = .tableSwitch ↔ op = .tableswitch) &&
        (op.operandKind = .lookupSwitch ↔ op = .lookupswitch)) = true := by
    decide +kernel
  simpa using List.all_eq_true.1 table op (Opcode.mem_all op)

/-- An opcode opens a switch if it is one of the two and has no operands. -/
theorem readOperands_eq_ok_switch_iff {op : Opcode} {operands : List Char} {kind : SwitchKind} :
    readOperands op operands = .ok (.switch kind) ↔ op = kind.opcode ∧ words operands = [] := by
  by_cases table : op.operandKind = .tableSwitch
  · obtain rfl := operandKind_eq_switch_iff.1.1 table
    unfold readOperands
    rw [table]
    dsimp only
    split
    · next bare => cases kind <;> simp [bare, SwitchKind.opcode]
    · next other => simp [other]
  by_cases lookup : op.operandKind = .lookupSwitch
  · obtain rfl := operandKind_eq_switch_iff.2.1 lookup
    unfold readOperands
    rw [lookup]
    dsimp only
    split
    · next bare => cases kind <;> simp [bare, SwitchKind.opcode]
    · next other => simp [other]
  refine iff_of_false ?_ ?_
  · intro h
    unfold readOperands at h
    split at h
    case h_7 found => exact table found
    case h_8 found => exact lookup found
    -- No other kind of operands gives anything but a node.
    all_goals
      try split at h
      all_goals
        simp only [bind_eq_ok_iff, pure_eq_ok_iff, Except.ok.injEq, reduceCtorEq, and_false,
          exists_false] at h
  · intro given
    rcases given with ⟨rfl, -⟩
    cases kind with
    | table => exact table rfl
    | lookup => exact lookup rfl

/-! ## Whole lines -/

/-- The characters of mnemonics. -/
def isMnemonicChar (c : Char) : Bool := c.isUpper || c.isDigit || c == '_'

theorem isBlank_of_isMnemonicChar {c : Char} (h : isMnemonicChar c = true) : isBlank c = false := by
  simp only [isMnemonicChar, Bool.or_eq_true, beq_iff_eq] at h
  rcases h with (upper | digit) | rfl
  · exact Text.isBlank_of_isUpper upper
  · exact Text.isBlank_of_isDigit digit
  · rfl

/-- The name of a label looks like a mnemonic. -/
theorem all_isMnemonicChar_of_isLabelName {name : List Char} (isName : isLabelName name = true) :
    name ≠ [] ∧ ∀ c ∈ name, isMnemonicChar c = true := by
  unfold isLabelName at isName
  split at isName
  · next digits =>
    rw [Bool.and_eq_true] at isName
    refine ⟨List.cons_ne_nil _ _, List.forall_mem_cons.2 ⟨by decide, fun c mem => ?_⟩⟩
    rw [isMnemonicChar, List.all_eq_true.1 isName.2 c mem, Bool.or_true, Bool.true_or]
  · cases isName

/-- A mnemonic is none of the other first words. -/
theorem mnemonic_spelling (op : Opcode) :
    (op.mnemonic.toList ≠ [] ∧ ∀ c ∈ op.mnemonic.toList, isMnemonicChar c = true) ∧
      isLabelName op.mnemonic.toList = false ∧ op.mnemonic.toList ≠ "LINENUMBER".toList ∧
        op.mnemonic.toList ≠ "FRAME".toList := by
  have table : (Opcode.all.all fun op =>
      !op.mnemonic.toList.isEmpty && op.mnemonic.toList.all isMnemonicChar &&
        !isLabelName op.mnemonic.toList && op.mnemonic.toList != "LINENUMBER".toList &&
          op.mnemonic.toList != "FRAME".toList) = true := by
    decide +kernel
  have row := List.all_eq_true.1 table op (Opcode.mem_all op)
  simpa [and_assoc] using row

theorem readInstruction_mnemonic (op : Opcode) (operands : List Char) :
    readInstruction op.mnemonic.toList operands = readOperands op operands := by
  obtain ⟨-, noLabel, noLine, noFrame⟩ := mnemonic_spelling op
  rw [readInstruction, noLabel, Bool.false_and, if_neg Bool.false_ne_true, if_neg noLine,
    if_neg noFrame, String.ofList_toList, Opcode.ofMnemonic?_mnemonic]

/-- A line is read as the node that it spells. -/
theorem readInstruction_eq_ok_node_iff {keyword operands : List Char} {node : Insn String} :
    readInstruction keyword operands = .ok (.node node) ↔ SpellsNode keyword operands node := by
  constructor
  · intro h
    unfold readInstruction at h
    split at h
    · next isLabel =>
      simp only [Bool.and_eq_true, beq_iff_eq] at isLabel
      obtain ⟨isName, rfl⟩ := isLabel
      simp only [Except.ok.injEq, Instruction.node.injEq] at h
      subst h
      exact .label isName
    split at h
    · next isLine =>
      subst isLine
      obtain ⟨_, read, same⟩ := map_eq_ok_iff.1 h
      obtain rfl := Instruction.node.inj same
      unfold readLineNumber at read
      simp only [bind_eq_ok_iff, pure_eq_ok_iff, readNumber_eq_ok_iff, readLabel_eq_ok_iff] at read
      obtain ⟨value, isNumber, _, ⟨isName, rfl⟩, rfl⟩ := read
      exact .line rfl isNumber isName
    split at h
    · next isFrame =>
      subst isFrame
      simp only [Except.ok.injEq, Instruction.node.injEq] at h
      subst h
      exact .frame
    split at h
    · next op found =>
      have mnemonic : op.mnemonic.toList = keyword := by
        rw [Opcode.mnemonic_of_ofMnemonic? found, String.toList_ofList]
      rw [← mnemonic]
      exact .opcode (readOperands_eq_ok_node_iff.1 h)
    · simp at h
  · intro h
    cases h with
    | label isName => simp [readInstruction, isName]
    | line split isNumber isName =>
      have noLabel : isLabelName "LINENUMBER".toList = false := by decide
      rw [readInstruction, noLabel, Bool.false_and, if_neg Bool.false_ne_true, if_pos rfl,
        map_eq_ok_iff]
      refine ⟨_, ?_, rfl⟩
      unfold readLineNumber
      simp only [split, bind_eq_ok_iff, pure_eq_ok_iff, readNumber_eq_ok_iff, readLabel_eq_ok_iff]
      exact ⟨_, isNumber, _, ⟨isName, rfl⟩, rfl⟩
    | frame =>
      have noLabel : isLabelName "FRAME".toList = false := by decide
      rw [readInstruction, noLabel, Bool.false_and, if_neg Bool.false_ne_true, if_neg (by decide),
        if_pos rfl]
    | @opcode op _ _ spells =>
      rw [readInstruction_mnemonic]
      exact readOperands_eq_ok_node_iff.2 spells

/-- A line opens a switch if it consists of the opcode alone. -/
theorem readInstruction_eq_ok_switch_iff {keyword operands : List Char} {kind : SwitchKind} :
    readInstruction keyword operands = .ok (.switch kind) ↔
      keyword = kind.keyword ∧ words operands = [] := by
  constructor
  · intro h
    unfold readInstruction at h
    split at h
    · simp at h
    split at h
    · obtain ⟨_, -, other⟩ := map_eq_ok_iff.1 h
      simp at other
    split at h
    · simp at h
    split at h
    · next op found =>
      have mnemonic : op.mnemonic.toList = keyword := by
        rw [Opcode.mnemonic_of_ofMnemonic? found, String.toList_ofList]
      obtain ⟨rfl, bare⟩ := readOperands_eq_ok_switch_iff.1 h
      exact ⟨mnemonic.symm, bare⟩
    · simp at h
  · intro given
    rcases given with ⟨rfl, bare⟩
    rw [SwitchKind.keyword, readInstruction_mnemonic]
    exact readOperands_eq_ok_switch_iff.2 ⟨rfl, bare⟩

/-! ## Switches -/

/-- A line of a switch is read as the case or as the default that it spells. -/
theorem readCase_eq_ok_iff {line : List Char} {case : Case} :
    readCase line = .ok case ↔
      (∃ key label, SpellsCase line key label ∧ case = .entry key label) ∨
        ∃ label, SpellsTarget line "default".toList label ∧ case = .otherwise label := by
  unfold readCase
  constructor
  · intro h
    split at h
    · next before target cut =>
      obtain ⟨split, first⟩ := Text.splitAt?_singleton_eq_some_iff.1 cut
      obtain ⟨label, read, h⟩ := bind_eq_ok_iff.1 h
      obtain ⟨isName, rfl⟩ := readLabel_eq_ok_iff.1 read
      split at h
      · next isDefault =>
        exact .inr ⟨_, ⟨before, target, split, first, isDefault, isName, rfl⟩,
          (pure_eq_ok_iff.1 h).symm⟩
      · obtain ⟨key, number, h⟩ := bind_eq_ok_iff.1 h
        exact .inl ⟨key, _, ⟨_, ⟨before, target, split, first, rfl, isName, rfl⟩,
          readNumber_eq_ok_iff.1 number⟩, (pure_eq_ok_iff.1 h).symm⟩
    · simp at h
  · intro given
    rcases given with ⟨key, _, ⟨_, ⟨before, target, split, first, rfl, isName, rfl⟩, number⟩,
      rfl⟩ | ⟨_, ⟨before, target, split, first, isDefault, isName, rfl⟩, rfl⟩
    · have noDefault : trim before ≠ "default".toList := by
        intro same
        have none_read : Text.int32? "default".toList = none := by decide
        rw [same, none_read] at number
        simp at number
      rw [Text.splitAt?_singleton_eq_some_iff.2 ⟨split, first⟩]
      simp only [bind_eq_ok_iff, readLabel_eq_ok_iff]
      refine ⟨_, ⟨isName, rfl⟩, ?_⟩
      rw [if_neg noDefault]
      exact bind_eq_ok_iff.2 ⟨key, readNumber_eq_ok_iff.2 number, rfl⟩
    · rw [Text.splitAt?_singleton_eq_some_iff.2 ⟨split, first⟩]
      simp only [bind_eq_ok_iff, readLabel_eq_ok_iff]
      refine ⟨_, ⟨isName, rfl⟩, ?_⟩
      rw [if_pos isDefault]
      rfl

section Table

variable [overflow : Overflow]

/-- The counter gives out the key that follows. -/
theorem next?_eq_some_iff {key next : Int32} :
    Overflow.next? key = some next ↔ Follows key next := by
  unfold Overflow.next? Follows
  by_cases greatest : key = Int32.maxValue
  · subst greatest
    have upper := next.toInt_le
    have beyond : next.toInt ≠ Int32.maxValue.toInt + 1 := by omega
    by_cases wraps : overflow = .wraps
    · simp [wraps, beyond, eq_comm]
    · simp [wraps, beyond]
  · have below : key.toInt < Int32.maxValue.toInt :=
      Int.lt_iff_le_and_ne.2 ⟨key.toInt_le, fun same => greatest (Int32.toInt_inj.1 same)⟩
    rw [if_neg greatest, Option.some.injEq, ← Int32.toInt_inj, toInt_add_one below]
    simp [greatest, eq_comm]

/-- One key is compared with the counter, which moves on. -/
theorem checkKeys_cons_eq_ok_iff {number key : Int32} {keys : List Int32} :
    OpenSwitch.checkKeys (some number) (key :: keys) = .ok () ↔
      (key = number ∧ (overflow = .stops → number ≠ Int32.maxValue)) ∧
        OpenSwitch.checkKeys (Overflow.next? number) keys = .ok () := by
  rw [OpenSwitch.checkKeys]
  by_cases stopped : Overflow.stopsAt number = true
  · obtain ⟨stops, greatest⟩ := Overflow.stopsAt_eq_true_iff.1 stopped
    rw [if_pos stopped]
    simp [stops, greatest]
  · have reached : overflow = .stops → number ≠ Int32.maxValue := fun stops greatest =>
      stopped (Overflow.stopsAt_eq_true_iff.2 ⟨stops, greatest⟩)
    rw [if_neg stopped]
    by_cases same : key = number
    · rw [if_pos same]
      exact ⟨fun rest => ⟨⟨same, reached⟩, rest⟩, And.right⟩
    · simp [same]

/-- The keys behind a key are consecutive if they are the numbers behind it. -/
theorem checkKeys_next?_eq_ok_iff {key : Int32} {keys : List Int32} :
    OpenSwitch.checkKeys (Overflow.next? key) keys = .ok () ↔
      (key :: keys).IsChain Follows ∧ (overflow = .stops → Int32.maxValue ∉ keys) := by
  induction keys generalizing key with
  | nil => simp [OpenSwitch.checkKeys]
  | cons next keys ih =>
    rw [List.isChain_cons_cons, ← next?_eq_some_iff]
    cases behind : Overflow.next? key with
    | none => simp [OpenSwitch.checkKeys]
    | some number =>
      rw [checkKeys_cons_eq_ok_iff]
      by_cases same : number = next
      · subst same
        rw [ih]
        simp only [List.mem_cons, not_or]
        tauto
      · simp [same, Ne.symm same]

/-- The keys of a table are accepted if they are consecutive. -/
theorem checkKeys_eq_ok_iff {key : Int32} {keys : List Int32} :
    OpenSwitch.checkKeys (some key) (key :: keys) = .ok () ↔ AreConsecutive (key :: keys) := by
  rw [checkKeys_cons_eq_ok_iff, checkKeys_next?_eq_ok_iff]
  constructor
  · rintro ⟨⟨-, here⟩, follow, behind⟩
    refine ⟨follow, ?_⟩
    intro stops greatest
    rcases List.mem_cons.1 greatest with same | later
    · exact here stops same.symm
    · exact behind stops later
  · rintro ⟨follow, reached⟩
    refine ⟨⟨rfl, ?_⟩, follow, ?_⟩
    · intro stops greatest
      exact reached stops (greatest ▸ List.mem_cons_self)
    · intro stops later
      exact reached stops (List.mem_cons_of_mem _ later)

/-- Keys are refused since one of them is not due, or the program stops. -/
theorem eq_of_checkKeys_eq_error {number : Option Int32} {keys : List Int32} {fault : Fault}
    (refused : OpenSwitch.checkKeys number keys = .error fault) :
    fault = .tableNotConsecutive ∨ overflow = .stops ∧ fault = .keyOverflow := by
  induction keys generalizing number with
  | nil =>
    rw [OpenSwitch.checkKeys] at refused
    cases refused
  | cons key keys ih =>
    cases number with
    | none =>
      cases refused
      exact .inl rfl
    | some number =>
      rw [OpenSwitch.checkKeys] at refused
      by_cases stopped : Overflow.stopsAt number = true
      · rw [if_pos stopped] at refused
        cases refused
        exact .inr ⟨(Overflow.stopsAt_eq_true_iff.1 stopped).1, rfl⟩
      · rw [if_neg stopped] at refused
        by_cases same : key = number
        · rw [if_pos same] at refused
          exact ih refused
        · rw [if_neg same] at refused
          cases refused
          exact .inl rfl

/-- A switch is closed with the node that its cases and its default spell. -/
theorem close_eq_ok_iff {switch : OpenSwitch} {label : String} {node : Insn String} :
    switch.close label = .ok node ↔
      SpellsSwitch switch.kind switch.reversedCases.reverse label node := by
  obtain ⟨header, kind, reversedCases⟩ := switch
  generalize cases_eq : reversedCases.reverse = cases
  unfold OpenSwitch.close
  simp only [cases_eq]
  cases kind with
  | lookup =>
    constructor
    · intro h
      simp only [Except.ok.injEq] at h
      subst h
      exact .lookup
    · intro h
      cases h
      rfl
  | table =>
    cases cases with
    | nil =>
      apply iff_of_false (by simp)
      intro given
      cases given
    | cons first others =>
      obtain ⟨min, target⟩ := first
      simp only [List.map_cons, map_eq_ok_iff]
      constructor
      · rintro ⟨⟨⟩, consecutive, rfl⟩
        exact .table (checkKeys_eq_ok_iff.1 consecutive)
      · intro h
        cases h with
        | table consecutive => exact ⟨(), checkKeys_eq_ok_iff.2 consecutive, rfl⟩

end Table

/-- Where keys end at the greatest one, each is greater by one than the key in front of it. -/
theorem areConsecutive_iff_isChain {keys : List Int32} :
    AreConsecutive keys ↔ keys.IsChain fun key next => next.toInt = key.toInt + 1 := by
  have follows : (Follows : Int32 → Int32 → Prop) =
      fun key next => next.toInt = key.toInt + 1 := by
    funext key next
    simp [Follows, instOverflow]
  constructor
  · rintro ⟨follow, -⟩
    rwa [follows] at follow
  · intro chain
    exact ⟨by rwa [follows], nofun⟩

/-- Keys that count up by one end as far behind the first as there are keys behind it. -/
theorem AreConsecutive.toInt_getLastD {key : Int32} {keys : List Int32}
    (consecutive : AreConsecutive (key :: keys)) :
    (keys.getLastD key).toInt = key.toInt + keys.length := by
  rw [areConsecutive_iff_isChain] at consecutive
  induction keys generalizing key with
  | nil => simp
  | cons next keys ih =>
    obtain ⟨step, rest⟩ := List.isChain_cons_cons.1 consecutive
    rw [List.getLastD_cons, ih rest, step, List.length_cons]
    omega

end BranchSieve.Listing
