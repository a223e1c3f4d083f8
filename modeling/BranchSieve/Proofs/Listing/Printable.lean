import BranchSieve.Listing.Printer
import BranchSieve.Proofs.Decimal.ReadBack
import BranchSieve.Proofs.Text.Words
import Mathlib.Data.List.Infix

/-!
# What a listing can show

A class that a listing can show keeps its texts apart: names are words, other texts stay on their
line, and an operand is not cut at a mark of its own. Each opcode has the operands of its kind, a
table has the keys that its bounds say, and the labels of a method have the numbers that a reader
gives them.
-/

namespace BranchSieve

open Text (IsWord IsLineRest isBlank)

/-- A constant that its operand tells: floating point bits have a literal, and a type does not look
    like a string. -/
def Constant.Printable : Constant → Prop
  | .int _ | .long _ | .string _ => True
  | .float bits => BinaryFormat.single.HasLiteral bits.toNat
  | .double bits => BinaryFormat.double.HasLiteral bits.toNat
  | .type descriptor => '\n' ∉ descriptor.toList ∧
      ∀ c ∈ descriptor.toList.head?, isBlank c = false ∧ c ≠ '"'

/-- The reference of a field, which stands in front of the mark ` : `. -/
structure IsFieldReference (owner name : String) : Prop where
  /-- The last dot of the reference is the one between the owner and the name. -/
  named : '.' ∉ name.toList
  rest : IsLineRest (writeMember owner name)
  /-- The mark is not in the reference. -/
  uncut : ¬ " : ".toList <:+: writeMember owner name
  /-- The mark does not begin in the reference. -/
  closed : ¬ " :".toList <:+ writeMember owner name

/-- A node whose opcode has the operands of its kind, with texts that can be told apart. -/
def Insn.Printable : Node → Prop
  | .label _ | .line _ _ | .iinc _ _ => True
  | .frame text => IsLineRest text.toList
  | .simple op => op.operandKind = .none
  | .int op _ => op.operandKind = .int
  | .var op _ => op.operandKind = .var
  | .jump op _ => op.operandKind = .jump
  | .type op descriptor => op.operandKind = .type ∧ IsWord descriptor.toList
  | .field op owner name descriptor => op.operandKind = .field ∧ IsFieldReference owner name ∧
      descriptor.toList ≠ [] ∧ IsLineRest descriptor.toList
  | .method op owner name descriptor => op.operandKind = .method ∧
      IsWord (writeMember owner name) ∧ '.' ∉ name.toList ∧ IsWord descriptor.toList
  | .invokeDynamic name descriptor => IsWord name.toList ∧ IsWord descriptor.toList
  | .multiANewArray descriptor _ => IsWord descriptor.toList
  | .ldc constant => constant.Printable
  | .tableSwitch min max labels _ => labels ≠ [] ∧ max.toInt + 1 = min.toInt + labels.length
  | .lookupSwitch keys labels _ => keys.length = labels.length

/-- The labels that the nodes of a body mention, each once, by their first mention. -/
def Body.mentioned (body : Body) : List Label :=
  (body.nodes.toList.flatMap Insn.labels).eraseDups

/-- The labels of a body are numbered by their first mention, and each is placed once. -/
structure Body.IsLabeled (body : Body) : Prop where
  numbered : body.mentioned = (List.range body.mentioned.length).map Label.mk
  placed : ∀ label ∈ body.mentioned, body.nodes.toList.count (.label label) = 1

/-- A method with a name and a descriptor, and with a body that is printed node by node. -/
structure Method.Printable (method : Method) : Prop where
  name : IsWord method.name.toList
  descriptor : method.descriptor.toList ≠ [] ∧ IsLineRest method.descriptor.toList
  nodes : ∀ node ∈ method.body.nodes.toList, node.Printable
  labels : method.body.IsLabeled

/-- A class that a listing can show. -/
structure ClassListing.Printable (listing : ClassListing) : Prop where
  name : IsWord listing.name.toList
  annotations : ∀ type ∈ listing.annotations, IsWord type.toList
  methods : ∀ method ∈ listing.methods, method.Printable

/-! ## Decisions -/

instance (f : BinaryFormat) (bits : Nat) : Decidable (f.HasLiteral bits) :=
  inferInstanceAs (Decidable (f.isNaN bits = false ∨ bits = f.nan))

theorem Constant.printable_type_iff {descriptor : String} :
    (Constant.type descriptor).Printable ↔
      '\n' ∉ descriptor.toList ∧
        descriptor.toList.head?.all (fun c => !isBlank c && c != '"') = true := by
  simp [Constant.Printable, Option.all_eq_true]

instance : DecidablePred Constant.Printable
  | .int _ | .long _ | .string _ => isTrue trivial
  | .float bits => inferInstanceAs (Decidable (BinaryFormat.single.HasLiteral bits.toNat))
  | .double bits => inferInstanceAs (Decidable (BinaryFormat.double.HasLiteral bits.toNat))
  | .type _ => decidable_of_iff' _ Constant.printable_type_iff

theorem isFieldReference_iff {owner name : String} :
    IsFieldReference owner name ↔
      '.' ∉ name.toList ∧ IsLineRest (writeMember owner name) ∧
        ¬ " : ".toList <:+: writeMember owner name ∧ ¬ " :".toList <:+ writeMember owner name :=
  ⟨fun h => ⟨h.named, h.rest, h.uncut, h.closed⟩, fun ⟨named, rest, uncut, closed⟩ =>
    ⟨named, rest, uncut, closed⟩⟩

instance (owner name : String) : Decidable (IsFieldReference owner name) :=
  decidable_of_iff' _ isFieldReference_iff

instance : DecidablePred Insn.Printable
  | .label _ | .line _ _ | .iinc _ _ => isTrue trivial
  | .frame text => inferInstanceAs (Decidable (IsLineRest text.toList))
  | .simple op => inferInstanceAs (Decidable (op.operandKind = .none))
  | .int op _ => inferInstanceAs (Decidable (op.operandKind = .int))
  | .var op _ => inferInstanceAs (Decidable (op.operandKind = .var))
  | .jump op _ => inferInstanceAs (Decidable (op.operandKind = .jump))
  | .type op descriptor =>
    inferInstanceAs (Decidable (op.operandKind = .type ∧ IsWord descriptor.toList))
  | .field op owner name descriptor =>
    inferInstanceAs (Decidable (op.operandKind = .field ∧ IsFieldReference owner name ∧
      descriptor.toList ≠ [] ∧ IsLineRest descriptor.toList))
  | .method op owner name descriptor =>
    inferInstanceAs (Decidable (op.operandKind = .method ∧ IsWord (writeMember owner name) ∧
      '.' ∉ name.toList ∧ IsWord descriptor.toList))
  | .invokeDynamic name descriptor =>
    inferInstanceAs (Decidable (IsWord name.toList ∧ IsWord descriptor.toList))
  | .multiANewArray descriptor _ => inferInstanceAs (Decidable (IsWord descriptor.toList))
  | .ldc constant => inferInstanceAs (Decidable constant.Printable)
  | .tableSwitch min max labels _ =>
    inferInstanceAs (Decidable (labels ≠ [] ∧ max.toInt + 1 = min.toInt + labels.length))
  | .lookupSwitch keys labels _ => inferInstanceAs (Decidable (keys.length = labels.length))

theorem Body.isLabeled_iff {body : Body} :
    body.IsLabeled ↔ body.mentioned = (List.range body.mentioned.length).map Label.mk ∧
      ∀ label ∈ body.mentioned, body.nodes.toList.count (.label label) = 1 :=
  ⟨fun h => ⟨h.numbered, h.placed⟩, fun ⟨numbered, placed⟩ => ⟨numbered, placed⟩⟩

instance : DecidablePred Body.IsLabeled := fun _ => decidable_of_iff' _ Body.isLabeled_iff

theorem Method.printable_iff {method : Method} :
    method.Printable ↔ IsWord method.name.toList ∧
      (method.descriptor.toList ≠ [] ∧ IsLineRest method.descriptor.toList) ∧
      (∀ node ∈ method.body.nodes.toList, node.Printable) ∧ method.body.IsLabeled :=
  ⟨fun h => ⟨h.name, h.descriptor, h.nodes, h.labels⟩, fun ⟨name, descriptor, nodes, labels⟩ =>
    ⟨name, descriptor, nodes, labels⟩⟩

instance : DecidablePred Method.Printable := fun _ => decidable_of_iff' _ Method.printable_iff

theorem ClassListing.printable_iff {listing : ClassListing} :
    listing.Printable ↔ IsWord listing.name.toList ∧
      (∀ type ∈ listing.annotations, IsWord type.toList) ∧
      ∀ method ∈ listing.methods, method.Printable :=
  ⟨fun h => ⟨h.name, h.annotations, h.methods⟩, fun ⟨name, annotations, methods⟩ =>
    ⟨name, annotations, methods⟩⟩

instance : DecidablePred ClassListing.Printable :=
  fun _ => decidable_of_iff' _ ClassListing.printable_iff

end BranchSieve
