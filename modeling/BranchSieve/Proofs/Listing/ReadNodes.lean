import BranchSieve.Proofs.Listing.Printable
import BranchSieve.Proofs.Listing.Spelling
import BranchSieve.Proofs.Text.Lines

/-!
# What a read node shows

A node that a line spells has its texts from a trimmed line, so names are words and other texts stay
on their line. What a listing can show of it is told by its own text but for two things: the bits of
NaN are not, and the reference of a field may end in the start of the mark ` : ` that stands behind
it.
-/

namespace BranchSieve

open Text (IsWord IsLineRest IsTrimmed isBlank trim splitFirst words)

/-- The constant is a floating point number and NaN. -/
def Constant.IsNaN : Constant → Prop
  | .float bits => BinaryFormat.single.isNaN bits.toNat = true
  | .double bits => BinaryFormat.double.isNaN bits.toNat = true
  | _ => False

/-- The node is the load of NaN. -/
def Insn.LoadsNaN {ℓ : Type} : Insn ℓ → Prop
  | .ldc constant => constant.IsNaN
  | _ => False

/-- The reference of a field ends in the start of the mark behind it. -/
def Insn.RunsIntoMark {ℓ : Type} : Insn ℓ → Prop
  | .field _ owner name _ => " :".toList <:+ writeMember owner name
  | _ => False

instance : DecidablePred Constant.IsNaN
  | .float bits => inferInstanceAs (Decidable (BinaryFormat.single.isNaN bits.toNat = true))
  | .double bits => inferInstanceAs (Decidable (BinaryFormat.double.isNaN bits.toNat = true))
  | .int _ | .long _ | .string _ | .type _ => isFalse id

instance {ℓ : Type} (node : Insn ℓ) : Decidable node.LoadsNaN := by
  cases node with
  | ldc constant => exact inferInstanceAs (Decidable constant.IsNaN)
  | _ => exact isFalse id

instance {ℓ : Type} (node : Insn ℓ) : Decidable node.RunsIntoMark := by
  cases node with
  | field op owner name descriptor =>
    exact inferInstanceAs (Decidable (" :".toList <:+ writeMember owner name))
  | _ => exact isFalse id

/-- A field whose reference is a trimmed text in front of the mark ` : `. -/
structure IsReadField (op : Opcode) (owner name descriptor : String) : Prop where
  kind : op.operandKind = .field
  named : '.' ∉ name.toList
  reference : IsLineRest (writeMember owner name)
  uncut : ¬ " : ".toList <:+: writeMember owner name
  described : descriptor.toList ≠ []
  rest : IsLineRest descriptor.toList

/-- A node as a line or the lines of a switch may spell it. -/
def Insn.IsRead : Node → Prop
  | .field op owner name descriptor => IsReadField op owner name descriptor
  | .ldc constant => constant.IsNaN ∨ constant.Printable
  | node => node.Printable

/-- A read node can be shown if its text tells it. -/
theorem Insn.IsRead.printable {node : Node} (read : node.IsRead) (number : ¬ node.LoadsNaN)
    (apart : ¬ node.RunsIntoMark) : node.Printable := by
  cases node with
  | ldc constant => exact read.resolve_left number
  | field op owner name descriptor =>
    exact ⟨read.kind, ⟨read.named, read.reference, read.uncut, apart⟩, read.described, read.rest⟩
  | _ => exact read

namespace Listing

variable {op : Opcode} {operands keyword : List Char} {node : Insn String} {f : String → Label}

/-- A constant that a trimmed operand spells is told by its text unless it is NaN. -/
theorem isNaN_or_printable {constant : Constant} (spells : SpellsConstant operands constant)
    (rest : IsLineRest operands) : constant.IsNaN ∨ constant.Printable := by
  cases spells with
  | string => exact .inr trivial
  | long => exact .inr trivial
  | int => exact .inr trivial
  | @float _ bits =>
    cases number : BinaryFormat.single.isNaN (UInt32.ofNat bits).toNat with
    | true => exact .inl number
    | false => exact .inr (.inl number)
  | @double _ bits =>
    cases number : BinaryFormat.double.isNaN (UInt64.ofNat bits).toNat with
    | true => exact .inl number
    | false => exact .inr (.inl number)
  | @type descriptor bare =>
    refine .inr ⟨?_, ?_⟩
    · rw [String.toList_ofList]
      exact fun feed => rest.2 (List.mem_append_left _ feed)
    · rw [String.toList_ofList]
      intro c mem
      refine ⟨rest.1.1 c ?_, fun quote => bare (quote ▸ mem)⟩
      rw [List.head?_append, Option.mem_def.1 mem]
      rfl

/-- Behind the mark in a trimmed text there is more than blanks, since the mark ends with one. -/
theorem trim_ne_nil_of_splitAt? {reference descriptor : List Char}
    (split : Text.splitAt? " : ".toList operands = some (reference, descriptor))
    (trimmed : IsTrimmed operands) : trim descriptor ≠ [] := by
  intro empty
  have cut : operands = (reference ++ " :".toList) ++ ' ' :: descriptor := by
    simp [Text.append_of_splitAt? split]
  obtain ⟨last, isLast⟩ : ∃ last, (' ' :: descriptor).getLast? = some last :=
    ⟨_, List.getLast?_eq_some_getLast (List.cons_ne_nil _ _)⟩
  have shownLast : operands.getLast? = some last := by
    rw [cut, List.getLast?_append, isLast, Option.some_or]
  have blank : isBlank last = true := by
    rcases List.mem_cons.1 (List.mem_of_getLast? isLast) with rfl | mem
    · rfl
    · exact Text.isBlank_of_trim_eq_nil empty last mem
  rw [trimmed.2 last shownLast] at blank
  cases blank

/-- The parts in front of the first mark and behind it, trimmed, are a field. -/
theorem isReadField_of_splitAt? {reference descriptor owner name : List Char}
    (kind : op.operandKind = .field)
    (split : Text.splitAt? " : ".toList operands = some (reference, descriptor))
    (member : trim reference = owner ++ '.' :: name) (named : '.' ∉ name)
    (rest : IsLineRest operands) :
    IsReadField op (String.ofList owner) (String.ofList name)
      (String.ofList (trim descriptor)) := by
  have whole := Text.append_of_splitAt? split
  have shown : writeMember (String.ofList owner) (String.ofList name) = trim reference := by
    rw [member, writeMember, String.toList_ofList, String.toList_ofList]
  have front : ∀ c ∈ reference, c ∈ operands := by simp +contextual [whole]
  have back : ∀ c ∈ descriptor, c ∈ operands := by simp +contextual [whole]
  refine ⟨kind, by simpa using named, ?_, ?_, ?_, ?_⟩
  · rw [shown]
    exact ⟨Text.isTrimmed_trim _, fun feed => rest.2 (front _ ((Text.isInfix_trim _).subset feed))⟩
  · rw [shown]
    intro inside
    exact Text.not_infix_of_splitAt? split (by decide) (inside.trans (Text.isInfix_trim _))
  · rw [String.toList_ofList]
    exact trim_ne_nil_of_splitAt? split rest.1
  · rw [String.toList_ofList]
    exact ⟨Text.isTrimmed_trim _, fun feed => rest.2 (back _ ((Text.isInfix_trim _).subset feed))⟩

/-- What an opcode's operands spell. -/
theorem isRead_of_spellsOperands (spells : SpellsOperands op operands node)
    (rest : IsLineRest operands) : (node.mapLabels f).IsRead := by
  have words_spec : ∀ {word : List Char}, word ∈ words operands → IsWord word :=
    fun mem => Text.isWord_of_mem_words mem
  unfold SpellsOperands at spells
  split at spells
  · next kind =>
    obtain ⟨-, rfl⟩ := spells
    exact kind
  · next kind =>
    obtain ⟨_, _, -, -, rfl⟩ := spells
    exact kind
  · next kind =>
    obtain ⟨constant, spells, rfl⟩ := spells
    exact isNaN_or_printable spells rest
  · next kind =>
    obtain ⟨_, _, -, -, rfl⟩ := spells
    exact kind
  · obtain ⟨_, _, _, _, -, -, -, rfl⟩ := spells
    exact trivial
  · next kind =>
    obtain ⟨_, -, -, rfl⟩ := spells
    exact kind
  · exact spells.elim
  · exact spells.elim
  · next kind =>
    obtain ⟨reference, descriptor, owner, name, split, member, named, rfl⟩ := spells
    exact isReadField_of_splitAt? kind split member named rest
  · next kind =>
    obtain ⟨owner, name, descriptor, others, split, named, rfl⟩ := spells
    refine ⟨kind, ?_, by simpa using named, ?_⟩
    · have word : IsWord (owner ++ '.' :: name) := words_spec (by rw [split]; simp)
      rwa [writeMember, String.toList_ofList, String.toList_ofList]
    · rw [String.toList_ofList]
      exact words_spec (by rw [split]; simp)
  · obtain ⟨name, descriptor, others, split, rfl⟩ := spells
    refine ⟨?_, ?_⟩
    · rw [String.toList_ofList]
      exact words_spec (by rw [split]; simp)
    · rw [String.toList_ofList]
      exact words_spec (by rw [split]; simp)
  · next kind =>
    obtain ⟨descriptor, split, rfl⟩ := spells
    refine ⟨kind, ?_⟩
    rw [String.toList_ofList]
    exact words_spec (by rw [split]; simp)
  · obtain ⟨descriptor, token, dims, split, -, rfl⟩ := spells
    have word : IsWord descriptor := words_spec (by rw [split]; simp)
    simpa [Insn.mapLabels, Insn.IsRead, Insn.Printable] using word

/-- What a line spells. -/
theorem isRead_of_spellsNode (spells : SpellsNode keyword operands node)
    (rest : IsLineRest operands) : (node.mapLabels f).IsRead := by
  cases spells with
  | label => trivial
  | line => trivial
  | frame =>
    rw [← String.toList_ofList (l := operands)] at rest
    exact rest
  | opcode spells => exact isRead_of_spellsOperands spells rest

/-- What the lines of a switch spell. -/
theorem isRead_of_spellsSwitch {kind : SwitchKind} {cases : List (Int32 × String)} {label : String}
    (spells : SpellsSwitch kind cases label node) : (node.mapLabels f).IsRead := by
  cases spells with
  | table consecutive =>
    refine ⟨by simp, ?_⟩
    rw [consecutive.toInt_getLastD]
    simp
    omega
  | lookup => simp [Insn.mapLabels, Insn.IsRead, Insn.Printable]

end Listing

end BranchSieve
