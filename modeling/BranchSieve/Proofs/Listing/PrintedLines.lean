import BranchSieve.Proofs.Listing.PrintedOperands
import BranchSieve.Proofs.Listing.Run
import BranchSieve.Proofs.Text.Lines
import Mathlib.Data.List.Range

/-!
# Printed lines

The lines of a printed node are read as one item, which spells the node with the names of its
labels. A node has one line, and a switch a further line for each case and for the default.
-/

namespace BranchSieve

open Text (IsWord IsLineRest IsTrimmed IsPlainLine Joins endLines isBlank trim splitFirst words
  digitsOfInt)

/-- The line of a case in a switch. -/
def caseLine (key : List Char) (label : Label) : List Char :=
  "    ".toList ++ (key ++ ": ".toList ++ label.write)

/-- The lines of a switch in a method. -/
def switchLines (mnemonic : String) (cases : List (Int32 × Label)) (otherwise : Label) :
    List (List Char) :=
  ("  ".toList ++ mnemonic.toList) ::
    (cases.map (fun (key, label) => caseLine (digitsOfInt key.toInt) label) ++
      [caseLine "default".toList otherwise])

/-- The lines of a node in a method. -/
def Insn.lines : Node → List (List Char)
  | .tableSwitch min _ labels otherwise =>
    switchLines Opcode.tableswitch.mnemonic (tableCases min labels) otherwise
  | .lookupSwitch keys labels otherwise =>
    switchLines Opcode.lookupswitch.mnemonic (keys.zip labels) otherwise
  | node => ["  ".toList ++ node.write]

theorem endLines_switchLines (mnemonic : String) (cases : List (Int32 × Label))
    (otherwise : Label) :
    endLines (switchLines mnemonic cases otherwise) =
      "  ".toList ++ writeSwitch mnemonic cases otherwise ++ ['\n'] := by
  rw [switchLines, Text.endLines_cons_eq_flatMap, List.flatMap_append, List.flatMap_map,
    writeSwitch]
  simp [caseLine, writeCase]

/-- A node is printed by its lines. -/
theorem endLines_lines (node : Node) :
    endLines node.lines = ' ' :: ' ' :: node.write ++ ['\n'] := by
  cases node with
  | tableSwitch min max labels otherwise => exact endLines_switchLines _ _ _
  | lookupSwitch keys labels otherwise => exact endLines_switchLines _ _ _
  | _ => simp [Insn.lines, endLines]

namespace Listing

/-- Lines that are read as one item, which spells a node. -/
structure Shows (lines : List (List Char)) (node : Insn String) : Prop where
  item : ∃ item, Itemizes lines [item] ∧ item.Spells node
  plain : ∀ line ∈ lines, IsPlainLine line

section Line

variable {keyword operands indent text : List Char} {node : Insn String}

/-- The first word of a node's line looks like a mnemonic. -/
theorem all_isMnemonicChar_of_spellsNode (spells : SpellsNode keyword operands node) :
    keyword ≠ [] ∧ ∀ c ∈ keyword, isMnemonicChar c = true := by
  cases spells with
  | label isName => exact all_isMnemonicChar_of_isLabelName isName
  | line => exact ⟨by decide, List.all_eq_true.1 (by decide)⟩
  | frame => exact ⟨by decide, List.all_eq_true.1 (by decide)⟩
  | @opcode op _ _ => exact (mnemonic_spelling op).1

theorem ofLine_of_all_isMnemonicChar (upper : ∀ c ∈ keyword, isMnemonicChar c = true) :
    Item.ofLine keyword operands = .instruction keyword operands := by
  have other : ∀ {word : List Char}, word.all isMnemonicChar = false → keyword ≠ word := by
    intro word lower same
    subst same
    rw [List.all_eq_true.2 upper] at lower
    cases lower
  unfold Item.ofLine
  rw [if_neg (other (by decide)), if_neg (other (by decide)), if_neg (other (by decide)),
    if_neg (other (by decide))]

/-- A line is read as the item of its first word. -/
theorem itemizes_line (blank : ∀ c ∈ indent, isBlank c = true) (word : IsWord keyword)
    (noComment : keyword.head? ≠ some '/') (single : ∀ kind : SwitchKind, keyword ≠ kind.keyword)
    (rest : IsTrimmed operands) (joins : Joins keyword operands text) :
    Itemizes [indent ++ text] [.ofLine keyword operands] := by
  have split := Text.splitFirst_trim blank word rest joins
  exact .line (isSkipped_of_splitFirst split word.1 noComment) split single .nil

/-- A printed line shows the node that it spells. -/
theorem shows_line (spells : SpellsNode keyword operands node) (rest : IsLineRest operands)
    (joins : Joins keyword operands text) : Shows ["  ".toList ++ text] node := by
  obtain ⟨nonempty, upper⟩ := all_isMnemonicChar_of_spellsNode spells
  have word : IsWord keyword := ⟨nonempty, fun c mem => isBlank_of_isMnemonicChar (upper c mem)⟩
  have noComment : keyword.head? ≠ some '/' := head?_ne_of_all upper (by decide)
  have single : ∀ kind : SwitchKind, keyword ≠ kind.keyword := by
    intro kind same
    subst same
    exact not_spellsNode_keyword spells
  constructor
  · refine ⟨.instruction keyword operands, ?_, .instruction spells⟩
    rw [← ofLine_of_all_isMnemonicChar upper]
    exact itemizes_line (List.all_eq_true.1 (by decide)) word noComment single rest.1 joins
  · intro line mem
    rw [List.mem_singleton.1 mem]
    exact Text.isPlainLine_append (by simp) word rest joins

theorem shows_instruction {op : Opcode} (spells : SpellsOperands op operands node)
    (rest : IsLineRest operands) :
    Shows ["  ".toList ++ writeInstruction op.mnemonic [operands]] node :=
  shows_line (.opcode spells) rest (.inl (by simp [writeInstruction]))

end Line

section Switch

variable {key : List Char} {label : Label}

theorem spellsTarget_caseLine (word : IsWord key) (noColon : ':' ∉ key) :
    SpellsTarget (caseLine key label) key label.name := by
  have blank : ∀ c ∈ "    ".toList, isBlank c = true := List.all_eq_true.1 (by decide)
  have trimmed : IsTrimmed (key ++ ": ".toList ++ label.write) :=
    word.isTrimmed.append word.1 Label.isWord_write.isTrimmed Label.isWord_write.1 _
  have target : trim (' ' :: label.write) = label.write := by
    have one : ∀ c ∈ [' '], isBlank c = true := List.all_eq_true.1 (by decide)
    rw [← List.singleton_append, Text.trim_append_of_blank one,
      Text.trim_of_isTrimmed Label.isWord_write.isTrimmed]
  refine ⟨key, ' ' :: label.write, ?_, noColon, Text.trim_of_isTrimmed word.isTrimmed, ?_, ?_⟩
  · rw [caseLine, Text.trim_append_of_blank blank, Text.trim_of_isTrimmed trimmed]
    simp
  · rw [target]
    exact Label.isLabelName_write
  · rw [target, Label.name]

theorem spellsCase_caseLine (key : Int32) :
    SpellsCase (caseLine (digitsOfInt key.toInt) label) key label.name := by
  have noColon : ':' ∉ digitsOfInt key.toInt := by
    intro mem
    have isDigit := (Text.all_isIntegerChar_of_signed? (Text.signed?_digitsOfInt key.toInt)).2 _ mem
    exact absurd isDigit (by decide)
  exact ⟨_, spellsTarget_caseLine (Text.isWord_digitsOfInt _) noColon, Text.int32?_digitsOfInt key⟩

theorem isPlainLine_caseLine (word : IsWord key) : IsPlainLine (caseLine key label) := by
  have marked : IsWord (key ++ [':']) := by
    refine ⟨by simp, ?_⟩
    simp only [List.forall_mem_append, List.forall_mem_singleton]
    exact ⟨word.2, rfl⟩
  have joins : Joins (key ++ [':']) label.write (key ++ ": ".toList ++ label.write) :=
    .inl (by simp)
  exact Text.isPlainLine_append (by simp) marked Label.isWord_write.isLineRest joins

/-- The lines of a switch show the node that the cases and the default make. -/
theorem shows_switch {kind : SwitchKind} {entries : List (Int32 × Label)} {otherwise : Label}
    {node : Insn String}
    (spells : SpellsSwitch kind (entries.map fun (key, label) => (key, label.name)) otherwise.name
      node) :
    Shows (switchLines kind.opcode.mnemonic entries otherwise) node := by
  obtain ⟨nonempty, upper⟩ := (mnemonic_spelling kind.opcode).1
  have word : IsWord kind.keyword :=
    ⟨nonempty, fun c mem => isBlank_of_isMnemonicChar (upper c mem)⟩
  have noComment : kind.keyword.head? ≠ some '/' := head?_ne_of_all upper (by decide)
  have joins : Joins kind.keyword [] kind.opcode.mnemonic.toList := .inr ⟨rfl, rfl⟩
  have isDefault : IsWord "default".toList := by decide
  have spelled : List.Forall₂ (fun line case => SpellsCase line case.1 case.2)
      (entries.map fun (key, label) => caseLine (digitsOfInt key.toInt) label)
      (entries.map fun (key, label) => (key, label.name)) := by
    rw [List.forall₂_map_left_iff, List.forall₂_map_right_iff, List.forall₂_same]
    exact fun entry _ => spellsCase_caseLine entry.1
  have closed :
      SpellsTarget (caseLine "default".toList otherwise) "default".toList otherwise.name :=
    spellsTarget_caseLine isDefault (by decide)
  have before : ∀ line ∈ entries.map fun (key, label) => caseLine (digitsOfInt key.toInt) label,
      ¬ IsDefault line := by
    intro line mem
    obtain ⟨entry, -, rfl⟩ := List.mem_map.1 mem
    exact not_isDefault_of_spellsCase (spellsCase_caseLine entry.1)
  have split :
      splitFirst (trim ("  ".toList ++ kind.opcode.mnemonic.toList)) = (kind.keyword, []) :=
    Text.splitFirst_trim (List.all_eq_true.1 (by decide)) word Text.isTrimmed_nil joins
  constructor
  · exact ⟨_, .switch (isSkipped_of_splitFirst split word.1 noComment) split before
      (isDefault_of_spellsTarget closed) .nil, .switch Text.words_nil spelled closed spells⟩
  · rw [switchLines, List.forall_mem_cons, List.forall_mem_append, List.forall_mem_singleton]
    refine ⟨Text.isPlainLine_append (by simp) word ⟨Text.isTrimmed_nil, by simp⟩ joins, ?_,
      isPlainLine_caseLine isDefault⟩
    intro line mem
    obtain ⟨entry, -, rfl⟩ := List.mem_map.1 mem
    exact isPlainLine_caseLine (Text.isWord_digitsOfInt _)

/-! ## Tables -/

variable {min max : Int32} {labels : List Label}

theorem map_snd_tableCases : (tableCases min labels).map Prod.snd = labels := by
  induction labels generalizing min with
  | nil => rfl
  | cons label labels ih => rw [tableCases, List.map_cons, ih]

/-- The keys of a table are consecutive if none of them is beyond the greatest one. -/
theorem areConsecutive_tableCases (inside : min.toInt + labels.length ≤ Int32.maxValue.toInt + 1) :
    AreConsecutive ((tableCases min labels).map Prod.fst) := by
  rw [areConsecutive_iff_isChain]
  induction labels generalizing min with
  | nil => exact .nil
  | cons label labels ih =>
    cases labels with
    | nil => exact .singleton _
    | cons next labels =>
      simp only [List.length_cons] at inside ih
      have moved : (min + 1).toInt = min.toInt + 1 := toInt_add_one (by omega)
      exact .cons_cons moved (ih (by omega))

/-- A table spells the node with its bounds. -/
theorem spellsSwitch_table {otherwise : Label} (nonempty : labels ≠ [])
    (bounds : max.toInt + 1 = min.toInt + labels.length) :
    SpellsSwitch .table ((tableCases min labels).map fun (key, label) => (key, label.name))
      otherwise.name (.tableSwitch min max (labels.map Label.name) otherwise.name) := by
  obtain ⟨first, others, rfl⟩ := List.exists_cons_of_ne_nil nonempty
  have upper := max.toInt_le
  generalize cases_eq :
    ((tableCases (min + 1) others).map fun (key, label) => (key, label.name)) = cases
  have keys : min :: cases.map Prod.fst = (tableCases min (first :: others)).map Prod.fst := by
    rw [← cases_eq, List.map_map]
    rfl
  have targets : cases.map Prod.snd = others.map Label.name := by
    have second : (tableCases (min + 1) others).map Prod.snd = others := map_snd_tableCases
    conv_rhs => rw [← second]
    rw [← cases_eq, List.map_map, List.map_map]
    rfl
  have consecutive : AreConsecutive (min :: cases.map Prod.fst) := by
    rw [keys]
    exact areConsecutive_tableCases (by omega)
  have last : (cases.map Prod.fst).getLastD min = max := by
    have count : cases.length = others.length := by
      rw [← List.length_map Prod.snd, targets, List.length_map]
    rw [← Int32.toInt_inj, consecutive.toInt_getLastD, List.length_map, count]
    rw [List.length_cons] at bounds
    omega
  have spelled : SpellsSwitch .table ((min, first.name) :: cases) otherwise.name _ :=
    .table consecutive
  rw [last, targets] at spelled
  rw [tableCases, List.map_cons, cases_eq]
  exact spelled

theorem shows_tableSwitch {otherwise : Label} (nonempty : labels ≠ [])
    (bounds : max.toInt + 1 = min.toInt + labels.length) :
    Shows (Insn.tableSwitch min max labels otherwise).lines
      (.tableSwitch min max (labels.map Label.name) otherwise.name) := by
  have spelled : SpellsSwitch .table
      ((tableCases min labels).map fun (key, label) => (key, label.name)) otherwise.name _ :=
    spellsSwitch_table nonempty bounds
  have shown := shows_switch spelled
  rwa [SwitchKind.opcode] at shown

theorem shows_lookupSwitch {keys : List Int32} {otherwise : Label}
    (same : keys.length = labels.length) :
    Shows (Insn.lookupSwitch keys labels otherwise).lines
      (.lookupSwitch keys (labels.map Label.name) otherwise.name) := by
  have spelled : SpellsSwitch .lookup ((keys.zip labels).map fun (key, label) => (key, label.name))
    otherwise.name _ := .lookup
  have front :
      ((keys.zip labels).map fun (key, label) => (key, label.name)).map Prod.fst = keys := by
    rw [List.map_map]
    exact List.map_fst_zip (Nat.le_of_eq same)
  have back : ((keys.zip labels).map fun (key, label) => (key, label.name)).map Prod.snd =
      labels.map Label.name := by
    rw [List.map_map]
    conv_rhs => rw [← List.map_snd_zip (Nat.le_of_eq same.symm), List.map_map]
    rfl
  rw [front, back] at spelled
  have shown := shows_switch spelled
  rwa [SwitchKind.opcode] at shown

end Switch

/-! ## Nodes -/

/-- Two operands are one text with a blank in it. -/
theorem writeInstruction_pair (mnemonic : String) (first second : List Char) :
    writeInstruction mnemonic [first, second] =
      writeInstruction mnemonic [first ++ ' ' :: second] := by
  simp [writeInstruction]

theorem shows_pair {op : Opcode} {first second : List Char} {node : Insn String}
    (spells : SpellsOperands op (first ++ ' ' :: second) node) (word : IsWord first)
    (word' : IsWord second) :
    Shows ["  ".toList ++ writeInstruction op.mnemonic [first, second]] node := by
  rw [writeInstruction_pair]
  exact shows_instruction spells (word.isLineRest_append word')

/-- The line of a field shows what its operands spell. -/
theorem shows_field {op : Opcode} {owner name descriptor : String} {node : Insn String}
    (spells : SpellsOperands op (writeMember owner name ++ ' ' :: ':' :: ' ' :: descriptor.toList)
      node)
    (reference : IsLineRest (writeMember owner name)) (nonempty : descriptor.toList ≠ [])
    (rest : IsLineRest descriptor.toList) :
    Shows (Insn.field op owner name descriptor).lines node := by
  have colon : IsWord [':'] := by decide
  have tail : IsLineRest (':' :: ' ' :: descriptor.toList) :=
    colon.isLineRest.append colon.1 rest nonempty
  have operands : IsLineRest (writeMember owner name ++ ' ' :: ':' :: ' ' :: descriptor.toList) :=
    reference.append (by simp [writeMember]) tail (List.cons_ne_nil _ _)
  have shown := shows_instruction spells operands
  simpa [Insn.lines, Insn.write, writeInstruction] using shown

/-- The lines of a node show the node. -/
theorem shows_lines {node : Node} (h : node.Printable) :
    Shows node.lines (node.mapLabels Label.name) := by
  cases node with
  | label l =>
    exact shows_line (.label Label.isLabelName_write) ⟨Text.isTrimmed_nil, by simp⟩
      (.inr ⟨rfl, rfl⟩)
  | line number start =>
    have split : splitFirst (Nat.toDigits 10 number.toNat ++ ' ' :: start.write) =
        (Nat.toDigits 10 number.toNat, start.write) := by
      rw [Text.splitFirst_append (Text.isWord_toDigits _).2 rfl,
        Text.trim_of_isTrimmed Label.isWord_write.isTrimmed]
    have spells := SpellsNode.line split (Text.uint32?_toDigits number) Label.isLabelName_write
    exact shows_line spells ((Text.isWord_toDigits _).isLineRest_append Label.isWord_write)
      (.inl (by simp [Insn.write, writeInstruction]))
  | frame text =>
    have spells : SpellsNode "FRAME".toList text.toList (.frame (String.ofList text.toList)) :=
      .frame
    rw [String.ofList_toList] at spells
    exact shows_line spells h (.inl (by simp [Insn.write, writeInstruction]))
  | simple op =>
    have spells : SpellsOperands op [] (.simple op) := by
      rw [SpellsOperands, show op.operandKind = .none from h]
      exact ⟨Text.words_nil, rfl⟩
    exact shows_line (.opcode spells) ⟨Text.isTrimmed_nil, by simp⟩
      (.inr ⟨rfl, by simp [Insn.write, writeInstruction]⟩)
  | int op operand =>
    exact shows_instruction (spellsOperands_int h operand) (Text.isWord_digitsOfInt _).isLineRest
  | var op slot =>
    exact shows_instruction (spellsOperands_var h slot) (Text.isWord_toDigits _).isLineRest
  | jump op target =>
    exact shows_instruction (spellsOperands_jump h target) Label.isWord_write.isLineRest
  | type op descriptor =>
    exact shows_instruction (spellsOperands_type h.1 h.2) h.2.isLineRest
  | iinc slot increment =>
    exact shows_pair (spellsOperands_iinc slot increment) (Text.isWord_toDigits _)
      (Text.isWord_digitsOfInt _)
  | field op owner name descriptor =>
    obtain ⟨kind, reference, nonempty, rest⟩ := h
    exact shows_field (spellsOperands_field kind reference rest) reference.rest nonempty rest
  | method op owner name descriptor =>
    obtain ⟨kind, reference, named, word⟩ := h
    exact shows_pair (spellsOperands_method kind reference named word) reference word
  | invokeDynamic name descriptor =>
    exact shows_pair (spellsOperands_invokeDynamic h.1 h.2) h.1 h.2
  | multiANewArray descriptor dims =>
    exact shows_pair (spellsOperands_multiANewArray h dims) h (Text.isWord_toDigits _)
  | ldc constant =>
    have spells : SpellsOperands .ldc constant.write (.ldc constant) :=
      ⟨constant, spellsConstant_write h, rfl⟩
    exact shows_instruction spells (isLineRest_constant h)
  | tableSwitch min max labels otherwise => exact shows_tableSwitch h.1 h.2
  | lookupSwitch keys labels otherwise => exact shows_lookupSwitch h

end Listing

end BranchSieve
