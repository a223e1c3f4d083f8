import BranchSieve.Bytecode.Class
import BranchSieve.Counter
import BranchSieve.Listing.Instruction

/-!
# Methods and switches under construction

A draft is a method whose labels are still names. When the method ends, the names are numbered in
the order in which the nodes mention them first, and each of them must have been placed. An open
switch collects its cases until the default comes.
-/

namespace BranchSieve.Listing

/-- A method that has not ended. -/
structure Draft where
  name : String
  descriptor : String
  nodes : Array (Insn String)
  deriving DecidableEq, Repr

namespace Draft

/-- The draft with one more node. -/
def push (draft : Draft) (node : Insn String) : Draft :=
  { draft with nodes := draft.nodes.push node }

/-- Is the label placed? -/
def places (draft : Draft) (label : String) : Bool :=
  draft.nodes.contains (.label label)

/-- The draft with one more node, unless that places a label again. -/
def add (draft : Draft) (node : Insn String) : Except Fault Draft :=
  match node with
  | .label label =>
    if draft.places label then .error .labelPlacedTwice else .ok (draft.push node)
  | _ => .ok (draft.push node)

/-- The names of the labels, by their first mention. -/
def labelNames (draft : Draft) : List String :=
  (draft.nodes.toList.flatMap Insn.labels).eraseDups

/-- The first of the labels that are never placed. -/
def undefinedLabel? (draft : Draft) : Option String :=
  draft.labelNames.find? (!draft.places ·)

/-- The body with a label's place among the names as its number. -/
def body (draft : Draft) : Body :=
  let names := draft.labelNames
  ⟨draft.nodes.map (Insn.mapLabels fun name => ⟨names.idxOf name⟩)⟩

/-- The finished method. -/
def finish (draft : Draft) : Except ParseError Method :=
  match draft.undefinedLabel? with
  | some label => .error (.undefinedLabel draft.name label)
  | none => .ok ⟨draft.name, draft.descriptor, draft.body⟩

end Draft

/-- A switch whose default has not come. -/
structure OpenSwitch where
  /-- The line that opened the switch. -/
  header : Line
  kind : SwitchKind
  /-- The keys with their labels, the last one first. -/
  reversedCases : List (Int32 × String)
  deriving DecidableEq, Repr

namespace OpenSwitch

/-- The switch with one more case. -/
def push (switch : OpenSwitch) (key : Int32) (label : String) : OpenSwitch :=
  { switch with reversedCases := (key, label) :: switch.reversedCases }

variable [Overflow]

/-- Compares keys with the numbers of a counter that has come to a number, or to its end. -/
def checkKeys : Option Int32 → List Int32 → Except Fault Unit
  | _, [] => .ok ()
  | none, _ :: _ => .error .tableNotConsecutive
  | some number, key :: keys =>
    if Overflow.stopsAt number then .error .keyOverflow
    else if key = number then checkKeys (Overflow.next? number) keys
    else .error .tableNotConsecutive

/-- The node of the switch with its default. -/
def close (switch : OpenSwitch) (otherwise : String) : Except Fault (Insn String) :=
  let cases := switch.reversedCases.reverse
  let keys := cases.map Prod.fst
  let labels := cases.map Prod.snd
  match switch.kind, keys with
  | .lookup, _ => .ok (.lookupSwitch keys labels otherwise)
  | .table, [] => .error .tableWithoutCases
  | .table, min :: rest =>
    (checkKeys (some min) keys).map fun _ =>
      .tableSwitch min (rest.getLastD min) labels otherwise

end OpenSwitch

end BranchSieve.Listing
