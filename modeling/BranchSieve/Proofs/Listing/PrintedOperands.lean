import BranchSieve.Proofs.Listing.Printable
import BranchSieve.Proofs.Listing.Spelling

/-!
# Printed operands

What is printed behind the first word of a node spells the node, kind by kind, and can be the rest
of a line. A label is printed by its name, and different labels have different names.
-/

namespace BranchSieve

open Text (IsWord IsLineRest IsTrimmed isBlank trim splitFirst words digitsOfInt)

namespace Label

/-- The name of a label, as a listing spells it. -/
def name (label : Label) : String := String.ofList label.write

variable {label : Label}

theorem isLabelName_write : Listing.isLabelName label.write = true := by
  have digit : (Nat.toDigits 10 label.id).all Char.isDigit = true :=
    List.all_eq_true.2 fun _ mem => Text.isDigit_of_mem_digits mem
  rw [write, Listing.isLabelName, digit, Bool.and_true, bne_iff_ne]
  exact Nat.toDigits_ne_nil

theorem isWord_write : IsWord label.write := by
  refine ⟨List.cons_ne_nil _ _, List.forall_mem_cons.2 ⟨by decide, fun c mem => ?_⟩⟩
  exact Text.isBlank_of_isDigit (Text.isDigit_of_mem_digits mem)

/-- Labels are told by their names. -/
theorem name_injective : Function.Injective name := by
  intro a b same
  have digits : Nat.toDigits 10 a.id = Nat.toDigits 10 b.id := by
    simpa [name, write] using congrArg String.toList same
  have ids : a.id = b.id := by
    rw [← Nat.ofDigitChars_ten_toDigits (n := a.id), digits, Nat.ofDigitChars_ten_toDigits]
  cases a
  cases b
  rw [Label.mk.injEq]
  exact ids

end Label

namespace Listing

/-! ## Constants -/

theorem isBlank_of_isPrintedChar {c : Char} (h : BinaryFormat.isPrintedChar c = true) :
    isBlank c = false := by
  simp only [BinaryFormat.isPrintedChar, Decimal.isDecimalChar, Bool.or_eq_true,
    decide_eq_true_eq] at h
  rcases h with (digit | mark) | letter
  · exact Text.isBlank_of_isDigit digit
  · have table : (['.', 'e', '-'].all fun c => !isBlank c) = true := by decide
    simpa using List.all_eq_true.1 table c mark
  · have table : ("InfityNa".toList.all fun c => !isBlank c) = true := by decide
    simpa using List.all_eq_true.1 table c letter

/-- The literal of a floating point number is a word of its own form. -/
theorem isWord_write {f : BinaryFormat} {bits : Nat} :
    IsWord (f.write bits) ∧ isDoubleForm (f.write bits) = true := by
  obtain ⟨shown, form⟩ := f.write_spelling bits
  have doubleForm : isDoubleForm (f.write bits) = true := by
    simp only [isDoubleForm, Bool.or_eq_true, List.any_eq_true, beq_iff_eq,
      List.isSuffixOf_iff_suffix]
    rcases form with ⟨c, mem, point | power⟩ | isNaN | infinite
    · exact .inl (.inl ⟨c, mem, .inl (.inl point)⟩)
    · exact .inl (.inl ⟨c, mem, .inr power⟩)
    · exact .inl (.inr isNaN)
    · exact .inr infinite
  have nonempty : f.write bits ≠ [] := by
    intro empty
    rw [empty] at doubleForm
    exact absurd doubleForm (by decide)
  exact ⟨⟨nonempty, fun c mem => isBlank_of_isPrintedChar (shown c mem)⟩, doubleForm⟩

theorem getLast?_write_ne {f : BinaryFormat} {bits : Nat} : (f.write bits).getLast? ≠ some 'F' := by
  intro last
  have shown := (f.write_spelling bits).1 'F' (List.mem_of_getLast? last)
  exact absurd shown (by decide)

/-- A printed constant is spelled by its operand. -/
theorem spellsConstant_write {constant : Constant} (h : constant.Printable) :
    SpellsConstant constant.write constant := by
  cases constant with
  | int value => exact .int (Text.int32?_digitsOfInt value)
  | long value => exact .long (Text.int64?_digitsOfInt value)
  | float bits =>
    have width : bits.toNat < 2 * BinaryFormat.single.signBit := bits.toNat_lt
    have read := BinaryFormat.read?_write (by decide) width h
    simpa [Constant.write] using SpellsConstant.float read
  | double bits =>
    have width : bits.toNat < 2 * BinaryFormat.double.signBit := bits.toNat_lt
    have read := BinaryFormat.read?_write (by decide) width h
    simpa [Constant.write] using SpellsConstant.double isWord_write.2 getLast?_write_ne read
  | string value =>
    have spelled := decode_eq_ok_iff.1 (Text.Quoted.decode_flatMap_encodeChar value.toList)
    simpa [Constant.write, Text.Quoted.write] using SpellsConstant.string spelled
  | type descriptor =>
    have bare : descriptor.toList.head? ≠ some '"' := fun first => (h.2 '"' first).2 rfl
    simpa [Constant.write] using SpellsConstant.type bare

theorem isLineRest_quoted (text : List Char) : IsLineRest (Text.Quoted.write text) := by
  refine ⟨⟨by simp [Text.Quoted.write, isBlank, Text.blankRanges], ?_⟩, ?_⟩
  · intro c last
    rw [Text.Quoted.write, List.getLast?_concat, Option.mem_some] at last
    rw [← last]
    rfl
  · have encoded : ∀ c, '\n' ∉ Text.Quoted.encodeChar c := by
      intro c
      unfold Text.Quoted.encodeChar
      split_ifs with quote slash feed tab
      · decide
      · decide
      · decide
      · decide
      · simpa using Ne.symm feed
    simp [Text.Quoted.write, encoded]

theorem isLineRest_constant {constant : Constant} (h : constant.Printable) :
    IsLineRest constant.write := by
  have solid : ∀ {digits : List Char} {mark : Char}, IsWord digits → isBlank mark = false →
      IsLineRest (digits ++ [mark]) := by
    intro digits mark word notBlank
    refine IsWord.isLineRest ⟨by simp, ?_⟩
    simpa [or_imp, forall_and, notBlank] using word.2
  cases constant with
  | int value => exact (Text.isWord_digitsOfInt _).isLineRest
  | long value => exact solid (Text.isWord_digitsOfInt _) rfl
  | float bits => exact solid isWord_write.1 rfl
  | double bits => exact isWord_write.1.isLineRest
  | string value => exact isLineRest_quoted value.toList
  | type descriptor =>
    obtain ⟨oneLine, first⟩ := h
    refine ⟨⟨?_, ?_⟩, ?_⟩
    · cases shown : descriptor.toList with
      | nil => simp [Constant.write, shown, isBlank, Text.blankRanges]
      | cons c rest =>
        have notBlank := (first c (by simp [shown])).1
        simpa [Constant.write, shown] using notBlank
    · simp [Constant.write, isBlank, Text.blankRanges]
    · simpa [Constant.write] using oneLine

/-! ## Operands -/

section Operands

variable {op : Opcode} {owner name descriptor : String}

theorem spellsOperands_int (kind : op.operandKind = .int) (operand : Int32) :
    SpellsOperands op (digitsOfInt operand.toInt) (.int op operand) := by
  rw [SpellsOperands, kind]
  exact ⟨_, operand, Text.words_of_isWord (Text.isWord_digitsOfInt _),
    .inr (Text.int32?_digitsOfInt operand), rfl⟩

theorem spellsOperands_var (kind : op.operandKind = .var) (slot : UInt16) :
    SpellsOperands op (Nat.toDigits 10 slot.toNat) (.var op slot) := by
  rw [SpellsOperands, kind]
  exact ⟨_, slot, Text.words_of_isWord (Text.isWord_toDigits _), Text.uint16?_toDigits slot, rfl⟩

theorem spellsOperands_jump (kind : op.operandKind = .jump) (target : Label) :
    SpellsOperands op target.write (.jump op target.name) := by
  rw [SpellsOperands, kind]
  exact ⟨_, Text.words_of_isWord Label.isWord_write, Label.isLabelName_write, rfl⟩

theorem spellsOperands_type (kind : op.operandKind = .type) (word : IsWord descriptor.toList) :
    SpellsOperands op descriptor.toList (.type op descriptor) := by
  rw [SpellsOperands, kind]
  exact ⟨_, Text.words_of_isWord word, by rw [String.ofList_toList]⟩

theorem words_pair {first second : List Char} (word : IsWord first) (word' : IsWord second) :
    words (first ++ ' ' :: second) = [first, second] := by
  rw [Text.words_append word rfl, Text.words_of_isWord word']

theorem spellsOperands_iinc (slot : UInt16) (increment : Int16) :
    SpellsOperands .iinc (Nat.toDigits 10 slot.toNat ++ ' ' :: digitsOfInt increment.toInt)
      (.iinc slot increment) :=
  ⟨_, _, slot, increment, words_pair (Text.isWord_toDigits _) (Text.isWord_digitsOfInt _),
    Text.uint16?_toDigits slot, Text.int16?_digitsOfInt increment, rfl⟩

theorem spellsOperands_multiANewArray (word : IsWord descriptor.toList) (dims : UInt8) :
    SpellsOperands .multianewarray (descriptor.toList ++ ' ' :: Nat.toDigits 10 dims.toNat)
      (.multiANewArray descriptor dims) :=
  ⟨_, _, dims, words_pair word (Text.isWord_toDigits _), Text.uint8?_toDigits dims,
    by rw [String.ofList_toList]⟩

theorem spellsOperands_invokeDynamic (word : IsWord name.toList)
    (word' : IsWord descriptor.toList) :
    SpellsOperands .invokedynamic (name.toList ++ ' ' :: descriptor.toList)
      (.invokeDynamic name descriptor) :=
  ⟨_, _, [], words_pair word word', by rw [String.ofList_toList, String.ofList_toList]⟩

theorem spellsOperands_method (kind : op.operandKind = .method)
    (reference : IsWord (writeMember owner name)) (named : '.' ∉ name.toList)
    (word : IsWord descriptor.toList) :
    SpellsOperands op (writeMember owner name ++ ' ' :: descriptor.toList)
      (.method op owner name descriptor) := by
  rw [SpellsOperands, kind]
  refine ⟨owner.toList, name.toList, _, [], words_pair reference word, named, ?_⟩
  simp only [String.ofList_toList]

/-- The mark behind a reference is the first one. -/
theorem not_infix_of_isFieldReference (h : IsFieldReference owner name) :
    ¬ " : ".toList <:+: writeMember owner name ++ " : ".toList.dropLast := by
  intro given
  rcases given with ⟨front, back, whole⟩
  rcases List.eq_nil_or_concat back with rfl | ⟨back, c, rfl⟩
  · have ends := congrArg List.getLast? whole
    simp at ends
  · rcases List.eq_nil_or_concat back with rfl | ⟨back, d, rfl⟩
    · have cut : front ++ " :".toList ++ [' ', c] = writeMember owner name ++ [' ', ':'] := by
        simpa using whole
      obtain ⟨same, -⟩ := List.append_inj' cut rfl
      exact h.closed ⟨front, same⟩
    · have cut :
          front ++ " : ".toList ++ back ++ [d, c] = writeMember owner name ++ [' ', ':'] := by
        simpa using whole
      obtain ⟨same, -⟩ := List.append_inj' cut rfl
      exact h.uncut ⟨front, back, same⟩

theorem spellsOperands_field (kind : op.operandKind = .field)
    (reference : IsFieldReference owner name) (rest : IsLineRest descriptor.toList) :
    SpellsOperands op (writeMember owner name ++ ' ' :: ':' :: ' ' :: descriptor.toList)
      (.field op owner name descriptor) := by
  rw [SpellsOperands, kind]
  have cut :
      Text.splitAt? " : ".toList (writeMember owner name ++ " : ".toList ++ descriptor.toList) =
      some (writeMember owner name, descriptor.toList) :=
    Text.splitAt?_append (by decide) (not_infix_of_isFieldReference reference) descriptor.toList
  refine ⟨writeMember owner name, descriptor.toList, owner.toList, name.toList, ?_, ?_,
    reference.named, ?_⟩
  · simpa using cut
  · rw [Text.trim_of_isTrimmed reference.rest.1, writeMember]
  · simp only [Text.trim_of_isTrimmed rest.1, String.ofList_toList]

end Operands

end Listing

end BranchSieve
