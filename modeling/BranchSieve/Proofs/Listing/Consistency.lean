import BranchSieve.Proofs.Bytecode.Labels
import BranchSieve.Proofs.Listing.Reprinting

/-!
# Consistency of what is read

A method that was read has a body in which the parts of each node fit: an opcode has the operands of
its kind, a table has as many labels as its bounds say, and a sparse one has a label for each key.
Its labels are numbered by their first mention, and each has one place, at which it is looked up.
-/

namespace BranchSieve

/-- The kind of the operands that a node holds, if it is no marker. -/
def Insn.operandKind? {ℓ : Type} : Insn ℓ → Option OperandKind
  | .label _ | .line _ _ | .frame _ => none
  | .simple _ => some .none
  | .int _ _ => some .int
  | .var _ _ => some .var
  | .iinc _ _ => some .iinc
  | .type _ _ => some .type
  | .field _ _ _ _ => some .field
  | .method _ _ _ _ => some .method
  | .invokeDynamic _ _ => some .invokeDynamic
  | .jump _ _ => some .jump
  | .ldc _ => some .ldc
  | .tableSwitch _ _ _ _ => some .tableSwitch
  | .lookupSwitch _ _ _ => some .lookupSwitch
  | .multiANewArray _ _ => some .multiANewArray

/-- The parts of a node fit. -/
structure Insn.IsConsistent {ℓ : Type} (node : Insn ℓ) : Prop where
  /-- The operands are of the kind that the opcode takes. -/
  kind : node.operandKind? = node.opcode?.map Opcode.operandKind
  /-- A table has a label for each key from its least to its greatest. -/
  table : ∀ min max labels otherwise, node = .tableSwitch min max labels otherwise →
    labels ≠ [] ∧ max.toInt = min.toInt + labels.length - 1
  /-- A sparse table has a label for each key. -/
  lookup : ∀ keys labels otherwise, node = .lookupSwitch keys labels otherwise →
    keys.length = labels.length

/-- The parts of a body fit. -/
structure Body.IsConsistent (body : Body) : Prop where
  nodes : ∀ node ∈ body.nodes.toList, node.IsConsistent
  /-- By their first mentions the labels count up from zero. -/
  numbered : ∃ count, body.mentioned = (List.range count).map Label.mk
  /-- A label has one place, and is looked up there. -/
  placed : ∀ label ∈ body.labels, ∃ index, body.labelIndex? label = some index ∧
    ∀ place, body.get? place = some (.label label) ↔ place = index

/-- The parts of a node fit if a line or the lines of a switch spell it. -/
theorem Insn.IsRead.isConsistent {node : Node} (read : node.IsRead) : node.IsConsistent := by
  have kind : node.operandKind? = node.opcode?.map Opcode.operandKind := by
    cases node with
    | simple op => exact congrArg some (Eq.symm read)
    | int op operand => exact congrArg some (Eq.symm read)
    | var op slot => exact congrArg some (Eq.symm read)
    | jump op target => exact congrArg some (Eq.symm read)
    | type op descriptor => exact congrArg some read.1.symm
    | field op owner name descriptor => exact congrArg some (IsReadField.kind read).symm
    | method op owner name descriptor => exact congrArg some read.1.symm
    | _ => rfl
  refine ⟨kind, ?_, ?_⟩
  · rintro min max labels otherwise rfl
    obtain ⟨some_case, bounds⟩ := read
    exact ⟨some_case, by omega⟩
  · rintro keys labels otherwise rfl
    exact read

/-- A body has one place for each label that it mentions if it is labeled. -/
theorem Body.IsLabeled.exists_labelIndex? {body : Body} (labeled : body.IsLabeled) {label : Label}
    (mentioned : label ∈ body.labels) :
    ∃ index, body.labelIndex? label = some index ∧
      ∀ place, body.get? place = some (.label label) ↔ place = index :=
  exists_labelIndex?_of_count_eq_one (labeled.placed label (Listing.mem_mentioned_iff.2 mentioned))

namespace Listing

/-- Each method of a class that was read has a consistent body. -/
theorem isConsistent_of_parse {text : String} {listing : ClassListing}
    (accepted : parse text = .ok listing) :
    ∀ method ∈ listing.methods, method.body.IsConsistent := by
  intro method mem
  have read := (isRead_of_parse accepted).methods method mem
  exact ⟨fun node inside => (read.nodes node inside).isConsistent, ⟨_, read.labels.numbered⟩,
    fun _ mentioned => read.labels.exists_labelIndex? mentioned⟩

/-- Two switches with labels in front of them and behind them, and a label that a line number
    mentions first. -/
theorem isConsistent_switches :
    let text := "class C\nmethod f ()V\nL9\nTABLESWITCH\n3: L5\n4: L9\ndefault: L7\nL5\n" ++
      "LINENUMBER 8 L2\nLOOKUPSWITCH\n-1: L7\ndefault: L2\nL2\nL7\nend\n"
    let body : Body := ⟨#[.label ⟨0⟩, .tableSwitch 3 4 [⟨1⟩, ⟨0⟩] ⟨2⟩, .label ⟨1⟩, .line 8 ⟨3⟩,
      .lookupSwitch [-1] [⟨2⟩] ⟨3⟩, .label ⟨3⟩, .label ⟨2⟩]⟩
    parse text = .ok ⟨"C", [], [⟨"f", "()V", body⟩]⟩ ∧ body.IsConsistent := by
  intro text body
  have accepted : parse text = .ok ⟨"C", [], [⟨"f", "()V", body⟩]⟩ := by decide +kernel
  exact ⟨accepted, isConsistent_of_parse accepted ⟨"f", "()V", body⟩ (by simp)⟩

end Listing

end BranchSieve
