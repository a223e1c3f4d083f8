import BranchSieve.Bytecode.Insn

/-!
# Expectations

An expectation says what a node shall be. It may name the slot of a local variable: the first use
of a name binds it to the slot, and each later use requires the same slot.
-/

namespace BranchSieve

/-- Slots of local variables by name. -/
abbrev Bindings := List (String × UInt16)

/-- The bindings in which the name has the slot, unless it has another one. -/
def Bindings.bind? (bindings : Bindings) (name : String) (slot : UInt16) : Option Bindings :=
  match bindings.lookup name with
  | none => some ((name, slot) :: bindings)
  | some bound => if bound = slot then some bindings else none

/-- What the next node with an opcode shall be. -/
inductive Expectation where
  /-- Any node with the opcode. -/
  | opcode (op : Opcode)
  /-- An instruction on the local variable that has the name. -/
  | var (op : Opcode) (name : String)
  /-- An instruction on the type. -/
  | type (op : Opcode) (descriptor : String)
  /-- A static call of the owner's method, with any descriptor. -/
  | invokeStatic (owner name : String)
  /-- A call of the owner's constructor. -/
  | invokeSuper (owner descriptor : String)
  /-- The load of the string. -/
  | ldcString (text : String)
  deriving DecidableEq, Repr

namespace Expectation

/-- Does the node have the opcode and the operands that are expected, whatever its slot? -/
def admits : Expectation → Node → Bool
  | .opcode op, node => node.opcode? = some op
  | .var op _, .var op' _ => op = op'
  | .type op descriptor, .type op' descriptor' => op = op' && descriptor = descriptor'
  | .invokeStatic owner name, .method op owner' name' _ =>
    op = .invokestatic && owner = owner' && name = name'
  | .invokeSuper owner descriptor, .method op owner' name descriptor' =>
    op = .invokespecial && owner = owner' && name = "<init>" && descriptor = descriptor'
  | .ldcString text, .ldc (.string text') => text = text'
  | _, _ => false

/-- The name and the slot that meeting the expectation with the node binds. -/
def binding? : Expectation → Node → Option (String × UInt16)
  | .var _ name, .var _ slot => some (name, slot)
  | _, _ => none

/-- The bindings after the node has met the expectation, if it does. -/
def meet? (expectation : Expectation) (bindings : Bindings) (node : Node) : Option Bindings :=
  if expectation.admits node then
    match expectation.binding? node with
    | some (name, slot) => bindings.bind? name slot
    | none => some bindings
  else none

end Expectation

end BranchSieve
