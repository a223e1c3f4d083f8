import BranchSieve.Listing.Draft
import BranchSieve.Text.Lines
import Mathlib.Data.List.Chain
import Mathlib.Data.List.Forall2

/-!
# The grammar of listings

What a listing is, said without a state. A line spells a constant, a node or a case of a switch by
its form alone. The lines of a text are read as items: a line by itself, or a switch with the lines
up to its default. A listing is a sequence of items in which each item stands in its place, and a
label is placed once in the method that mentions it.
-/

namespace BranchSieve.Listing

open Text (splitFirst trim words)

/-- The characters behind a backslash, with what they stand for. -/
def escapes : List (Char × Char) := [('"', '"'), ('\\', '\\'), ('n', '\n'), ('t', '\t')]

/-- The body of a string literal spells a text. -/
inductive SpellsText : List Char → List Char → Prop where
  | nil : SpellsText [] []
  | plain {c : Char} {body text : List Char} (bare : c ≠ '\\') (rest : SpellsText body text) :
      SpellsText (c :: body) (c :: text)
  | escape {c d : Char} {body text : List Char} (known : (c, d) ∈ escapes)
      (rest : SpellsText body text) : SpellsText ('\\' :: c :: body) (d :: text)

/-- An operand of `LDC` spells a constant. -/
inductive SpellsConstant : List Char → Constant → Prop where
  | string {body text : List Char} (spells : SpellsText body text) :
      SpellsConstant ('"' :: (body ++ ['"'])) (.string (String.ofList text))
  | type {descriptor : List Char} (bare : descriptor.head? ≠ some '"') :
      SpellsConstant (descriptor ++ ".class".toList) (.type (String.ofList descriptor))
  | long {digits : List Char} {value : Int64} (number : Text.int64? digits = some value) :
      SpellsConstant (digits ++ ['L']) (.long value)
  | float {digits : List Char} {bits : Nat}
      (number : BinaryFormat.single.read? digits = some bits) :
      SpellsConstant (digits ++ ['F']) (.float (.ofNat bits))
  | double {digits : List Char} {bits : Nat} (form : isDoubleForm digits = true)
      (bare : digits.getLast? ≠ some 'F') (number : BinaryFormat.double.read? digits = some bits) :
      SpellsConstant digits (.double (.ofNat bits))
  | int {digits : List Char} {value : Int32} (number : Text.int32? digits = some value) :
      SpellsConstant digits (.int value)

/-- A token spells an immediate operand: a number, or for `NEWARRAY` the name of a type. -/
def SpellsImmediate (op : Opcode) (token : List Char) (operand : Int32) : Prop :=
  (op = .newarray ∧ (String.ofList token, operand) ∈ elementTypes) ∨
    Text.int32? token = some operand

/-- The operands of an opcode, which have the shape of its kind, spell a node. A switch has none on
    its own line. -/
def SpellsOperands (op : Opcode) (operands : List Char) (node : Insn String) : Prop :=
  match op.operandKind with
  | .none => words operands = [] ∧ node = .simple op
  | .int => ∃ token operand,
      words operands = [token] ∧ SpellsImmediate op token operand ∧ node = .int op operand
  | .ldc => ∃ constant, SpellsConstant operands constant ∧ node = .ldc constant
  | .var => ∃ token slot,
      words operands = [token] ∧ Text.uint16? token = some slot ∧ node = .var op slot
  | .iinc => ∃ first second slot increment,
      words operands = [first, second] ∧ Text.uint16? first = some slot ∧
        Text.int16? second = some increment ∧ node = .iinc slot increment
  | .jump => ∃ target,
      words operands = [target] ∧ isLabelName target ∧ node = .jump op (String.ofList target)
  | .tableSwitch | .lookupSwitch => False
  | .field => ∃ reference descriptor owner name,
      Text.splitAt? " : ".toList operands = some (reference, descriptor) ∧
        trim reference = owner ++ '.' :: name ∧ '.' ∉ name ∧
        node = .field op (String.ofList owner) (String.ofList name)
          (String.ofList (trim descriptor))
  | .method => ∃ owner name descriptor others,
      words operands = (owner ++ '.' :: name) :: descriptor :: others ∧ '.' ∉ name ∧
        node = .method op (String.ofList owner) (String.ofList name) (String.ofList descriptor)
  | .invokeDynamic => ∃ name descriptor others,
      words operands = name :: descriptor :: others ∧
        node = .invokeDynamic (String.ofList name) (String.ofList descriptor)
  | .type => ∃ descriptor,
      words operands = [descriptor] ∧ node = .type op (String.ofList descriptor)
  | .multiANewArray => ∃ descriptor token dims,
      words operands = [descriptor, token] ∧ Text.uint8? token = some dims ∧
        node = .multiANewArray (String.ofList descriptor) dims

/-- A line with the given first word spells a node. -/
inductive SpellsNode : List Char → List Char → Insn String → Prop where
  | label {name : List Char} (isName : isLabelName name) :
      SpellsNode name [] (.label (String.ofList name))
  | line {operands number start : List Char} {value : UInt32}
      (split : splitFirst operands = (number, start)) (isNumber : Text.uint32? number = some value)
      (isName : isLabelName start) :
      SpellsNode "LINENUMBER".toList operands (.line value (String.ofList start))
  | frame {text : List Char} : SpellsNode "FRAME".toList text (.frame (String.ofList text))
  | opcode {op : Opcode} {operands : List Char} {node : Insn String}
      (spells : SpellsOperands op operands node) :
      SpellsNode op.mnemonic.toList operands node

/-- A line of a switch gives a text in front of its first colon and a label behind it. -/
def SpellsTarget (line key : List Char) (label : String) : Prop :=
  ∃ before target, trim line = before ++ ':' :: target ∧ ':' ∉ before ∧ trim before = key ∧
    isLabelName (trim target) ∧ label = String.ofList (trim target)

/-- A line of a switch spells a case. -/
def SpellsCase (line : List Char) (key : Int32) (label : String) : Prop :=
  ∃ digits, SpellsTarget line digits label ∧ Text.int32? digits = some key

/-- The text in front of the first colon of a line says that it is the default. -/
def IsDefault (line : List Char) : Prop :=
  ∃ before target, trim line = before ++ ':' :: target ∧ ':' ∉ before ∧
    trim before = "default".toList

/-- The key that comes next, which behind the greatest key is the least one if keys wrap. -/
def Follows [overflow : Overflow] (key next : Int32) : Prop :=
  next.toInt = key.toInt + 1 ∨
    overflow = .wraps ∧ key = Int32.maxValue ∧ next = Int32.minValue

/-- A case of a table has the key that comes next after the case in front of it. A program that
    stops where keys end does not come to the greatest one. -/
structure AreConsecutive [overflow : Overflow] (keys : List Int32) : Prop where
  follow : keys.IsChain Follows
  reached : overflow = .stops → Int32.maxValue ∉ keys

/-- What is read as a whole. -/
inductive Item where
  /-- The line that declares the class. -/
  | declare (operands : List Char)
  /-- A line with the type of an annotation. -/
  | annotate (operands : List Char)
  /-- The line that begins a method. -/
  | begin (operands : List Char)
  /-- The line that ends a method. -/
  | finish (operands : List Char)
  /-- Any other line, cut behind its first word. -/
  | instruction (keyword operands : List Char)
  /-- The operands of the first line of a switch, its cases, and the line of its default. -/
  | switch (kind : SwitchKind) (operands : List Char) (cases : List (List Char))
      (otherwise : List Char)
  deriving DecidableEq, Repr

/-- The opcode of a switch. -/
def SwitchKind.opcode : SwitchKind → Opcode
  | .table => .tableswitch
  | .lookup => .lookupswitch

/-- The first word of a switch. -/
def SwitchKind.keyword (kind : SwitchKind) : List Char := kind.opcode.mnemonic.toList

/-- The cases and the default of a switch make a node. -/
inductive SpellsSwitch [Overflow] :
    SwitchKind → List (Int32 × String) → String → Insn String → Prop where
  | table {min : Int32} {label otherwise : String} {others : List (Int32 × String)}
      (consecutive : AreConsecutive (min :: others.map Prod.fst)) :
      SpellsSwitch .table ((min, label) :: others) otherwise
        (.tableSwitch min ((others.map Prod.fst).getLastD min) (label :: others.map Prod.snd)
          otherwise)
  | lookup {cases : List (Int32 × String)} {otherwise : String} :
      SpellsSwitch .lookup cases otherwise
        (.lookupSwitch (cases.map Prod.fst) (cases.map Prod.snd) otherwise)

namespace Item

/-- The item of a line by its first word. -/
def ofLine (keyword operands : List Char) : Item :=
  if keyword = "class".toList then .declare operands
  else if keyword = "annotation".toList then .annotate operands
  else if keyword = "method".toList then .begin operands
  else if keyword = "end".toList then .finish operands
  else .instruction keyword operands

/-- Is the item none of the lines that make the class and its methods? -/
def isInstruction : Item → Bool
  | .instruction _ _ | .switch _ _ _ _ => true
  | _ => false

/-- Whether a method is open behind the item, if the item says so. -/
def opens? : Item → Option Bool
  | .begin _ => some true
  | .finish _ => some false
  | _ => none

/-- An item spells a node. -/
inductive Spells [Overflow] : Item → Insn String → Prop where
  | instruction {keyword operands : List Char} {node : Insn String}
      (spells : SpellsNode keyword operands node) : Spells (.instruction keyword operands) node
  | switch {kind : SwitchKind} {operands otherwise : List Char} {lines : List (List Char)}
      {cases : List (Int32 × String)} {label : String} {node : Insn String}
      (bare : words operands = [])
      (spelled : List.Forall₂ (fun line case => SpellsCase line case.1 case.2) lines cases)
      (closed : SpellsTarget otherwise "default".toList label)
      (spells : SpellsSwitch kind cases label node) :
      Spells (.switch kind operands lines otherwise) node

end Item

/-- Is the line blank or a comment? -/
def isSkipped (line : List Char) : Bool :=
  trim line = [] || ['/', '/'].isPrefixOf (trim line)

/-- The lines of a text are read as items. -/
inductive Itemizes : List (List Char) → List Item → Prop where
  | nil : Itemizes [] []
  | skip {line : List Char} {lines : List (List Char)} {items : List Item}
      (skipped : isSkipped line) (rest : Itemizes lines items) : Itemizes (line :: lines) items
  | line {line keyword operands : List Char} {lines : List (List Char)} {items : List Item}
      (shown : isSkipped line = false) (split : splitFirst (trim line) = (keyword, operands))
      (single : ∀ kind : SwitchKind, keyword ≠ kind.keyword) (rest : Itemizes lines items) :
      Itemizes (line :: lines) (.ofLine keyword operands :: items)
  | switch {line operands otherwise : List Char} {cases lines : List (List Char)}
      {items : List Item} {kind : SwitchKind} (shown : isSkipped line = false)
      (split : splitFirst (trim line) = (kind.keyword, operands))
      (before : ∀ case ∈ cases, ¬ IsDefault case) (closed : IsDefault otherwise)
      (rest : Itemizes lines items) :
      Itemizes (line :: (cases ++ otherwise :: lines))
        (.switch kind operands cases otherwise :: items)

/-- Methods that begin and end by turns. -/
def turns (count : Nat) : List Bool := (List.replicate count [true, false]).flatten

/-- A method is open behind some items. -/
def IsOpen (items : List Item) : Prop := (items.filterMap Item.opens?).getLast? = some true

/-- The label that a node places. -/
def placed? : Insn String → Option String
  | .label label => some label
  | _ => none

/-- Each label is placed once, and each label that is mentioned is placed. -/
def LabelsPlaced (nodes : List (Insn String)) : Prop :=
  (nodes.filterMap placed?).Nodup ∧ ∀ label ∈ nodes.flatMap Insn.labels, .label label ∈ nodes

/-- The items of a text are a listing. -/
structure IsListing [Overflow] (items : List Item) : Prop where
  /-- The class comes first and once. -/
  declared : ∃ operands name others, items = .declare operands :: others ∧
    words operands = [name] ∧ ∀ operands, .declare operands ∉ others
  /-- Methods begin and end by turns. -/
  alternate : ∃ count, items.filterMap Item.opens? = turns count
  /-- A method has a name and a descriptor. -/
  methods : ∀ operands, .begin operands ∈ items →
    (splitFirst operands).1 ≠ [] ∧ (splitFirst operands).2 ≠ []
  /-- An annotation has one operand. -/
  annotations : ∀ operands, .annotate operands ∈ items → ∃ type, words operands = [type]
  /-- Anything else stands in a method and spells a node. -/
  instructions : ∀ before item after, items = before ++ item :: after → item.isInstruction →
    IsOpen before ∧ ∃ node, item.Spells node
  /-- The labels of a method are placed. -/
  labels : ∀ before operands inner operands' after,
    items = before ++ .begin operands :: (inner ++ .finish operands' :: after) →
    (∀ operands, .finish operands ∉ inner) →
    ∀ nodes, List.Forall₂ Item.Spells (inner.filter Item.isInstruction) nodes → LabelsPlaced nodes

end BranchSieve.Listing
