import BranchSieve.Listing.Draft
import BranchSieve.Text.Lines

/-!
# Reading listings

A listing is read line by line. The state between two lines says what is open: nothing, a class, a
method of the class, or a switch of the method. Blank lines and comments are passed over, except
inside a switch, where every line is a case. Reading is a fold of `State.step` over the lines, so
a text is read as its first part and then the rest from the state that the first part leads to.
-/

namespace BranchSieve.Listing

open Text (splitFirst trim)

/-- The lines of a text, numbered from one. -/
def numberedLines (text : String) : List Line :=
  ((Text.lines text.toList).zipIdx 1).map fun (line, number) => ⟨number, String.ofList line⟩

/-- What a line outside of a switch says. -/
inductive Statement where
  /-- Nothing: the line is blank or a comment. -/
  | blank
  | declareClass (operands : List Char)
  | annotate (operands : List Char)
  | beginMethod (operands : List Char)
  | endMethod
  | instruction (mnemonic operands : List Char)
  deriving DecidableEq, Repr

/-- The statement of a line. -/
def Statement.read (text : List Char) : Statement :=
  let line := trim text
  if line = [] ∨ ['/', '/'].isPrefixOf line then .blank
  else
    let (keyword, rest) := splitFirst line
    if keyword = "class".toList then .declareClass rest
    else if keyword = "annotation".toList then .annotate rest
    else if keyword = "method".toList then .beginMethod rest
    else if keyword = "end".toList then .endMethod
    else .instruction keyword rest

/-- What is open between two lines outside of a switch. -/
inductive Scope where
  | outside
  | inClass (listing : ClassListing)
  | inMethod (listing : ClassListing) (draft : Draft)
  deriving DecidableEq, Repr

/-- What is open between two lines. -/
inductive State where
  | ready (scope : Scope)
  | inSwitch (listing : ClassListing) (draft : Draft) (switch : OpenSwitch)
  deriving DecidableEq, Repr

namespace Scope

/-- The scope after the line that declares the class. -/
def declareClass (scope : Scope) (operands : List Char) : Except Fault Scope :=
  match scope with
  | .outside => do
    let name ← readOneWord operands
    return .inClass ⟨String.ofList name, [], []⟩
  | _ => .error .duplicateClass

/-- The scope after a line with the type of an annotation of the class. -/
def annotate (scope : Scope) (operands : List Char) : Except Fault Scope :=
  let extend (listing : ClassListing) : Except Fault ClassListing := do
    let type ← readOneWord operands
    return { listing with annotations := listing.annotations ++ [String.ofList type] }
  match scope with
  | .outside => .error .annotationBeforeClass
  | .inClass listing => (extend listing).map .inClass
  | .inMethod listing draft => (extend listing).map (.inMethod · draft)

/-- The scope after the line that begins a method. -/
def beginMethod (scope : Scope) (line : Line) (operands : List Char) : Except ParseError Scope :=
  match scope with
  | .outside => .error (.atLine line .methodBeforeClass)
  | .inMethod _ draft => .error (.unterminatedMethod draft.name)
  | .inClass listing =>
    let (name, descriptor) := splitFirst operands
    if name = [] ∨ descriptor = [] then .error (.atLine line .methodOperands)
    else .ok (.inMethod listing ⟨String.ofList name, String.ofList descriptor, #[]⟩)

/-- The scope after the line that ends a method. -/
def endMethod (scope : Scope) (line : Line) : Except ParseError Scope :=
  match scope with
  | .inMethod listing draft => do
    let method ← draft.finish
    return .inClass { listing with methods := listing.methods ++ [method] }
  | _ => .error (.atLine line .endOutsideMethod)

/-- What is open after an instruction line. -/
def addInstruction (scope : Scope) (line : Line) (mnemonic operands : List Char) :
    Except Fault State :=
  match scope with
  | .inMethod listing draft => do
    match ← readInstruction mnemonic operands with
    | .node node => return .ready (.inMethod listing (← draft.add node))
    | .switch kind => return .inSwitch listing draft ⟨line, kind, []⟩
  | _ => .error .instructionOutsideMethod

/-- What is open after a line. -/
def step (scope : Scope) (line : Line) : Except ParseError State :=
  match Statement.read line.text.toList with
  | .blank => .ok (.ready scope)
  | .declareClass operands => (line.check (scope.declareClass operands)).map .ready
  | .annotate operands => (line.check (scope.annotate operands)).map .ready
  | .beginMethod operands => (scope.beginMethod line operands).map .ready
  | .endMethod => (scope.endMethod line).map .ready
  | .instruction mnemonic operands => line.check (scope.addInstruction line mnemonic operands)

end Scope

namespace State

/-- What is open at the start of a text. -/
def initial : State := .ready .outside

/-- What is open after a line. A fault of the whole switch belongs to its first line. -/
def step [Overflow] (state : State) (line : Line) : Except ParseError State :=
  match state with
  | .ready scope => scope.step line
  | .inSwitch listing draft switch => do
    match ← line.check (readCase line.text.toList) with
    | .entry key label => return .inSwitch listing draft (switch.push key label)
    | .otherwise label =>
      let node ← switch.header.check (switch.close label)
      return .ready (.inMethod listing (draft.push node))

/-- The class that has been read when the text ends. -/
def finish : State → Except ParseError ClassListing
  | .ready .outside => .error .missingClass
  | .ready (.inClass listing) => .ok listing
  | .ready (.inMethod _ draft) => .error (.unterminatedMethod draft.name)
  | .inSwitch _ _ switch => .error (.atLine switch.header .switchWithoutDefault)

end State

/-- The class that a text lists. -/
def parse [Overflow] (text : String) : Except ParseError ClassListing := do
  let state ← (numberedLines text).foldlM State.step State.initial
  state.finish

end BranchSieve.Listing
