import BranchSieve.IgnoreRange
import BranchSieve.Matcher

/-!
# State machines of coroutines

The body of a suspending lambda is compiled to a state machine with this skeleton, where `s` is the
slot of the marker that tells suspension:

```text
    INVOKESTATIC kotlin/coroutines/intrinsics/IntrinsicsKt.getCOROUTINE_SUSPENDED
    ASTORE s
    ALOAD 0
    GETFIELD label
    TABLESWITCH 0: C0, 1: C1, ..., default: D
C0: a check of the result
    ...
    DUP; ALOAD s; IF_ACMPNE K1; ALOAD s; ARETURN
C1: a check of the result; ALOAD result
K1: ...
D:  the fault of a call to resume before the start
```

None of these branches stand in the source. The recognizer finds the skeleton as a whole, with any
code between its parts, or not at all. It reports the fault first, then the dispatch with the first
check, then each suspension point in the order of the table: from the node where its comparison was
found to the reload of the result in front of its continuation.
-/

namespace BranchSieve.Coroutine

/-- The name of the slot that holds the marker of suspension. -/
def suspendedSlot : String := "COROUTINE_SUSPENDED"

/-- The type that a failed result is held in. -/
def resultFailure : String := "kotlin/Result$Failure"

/-- The exception for a call to resume before the start. -/
def illegalState : String := "java/lang/IllegalStateException"

/-- The fetch of the marker and the dispatch. -/
def prologue : List Expectation :=
  [.invokeStatic "kotlin/coroutines/intrinsics/IntrinsicsKt" "getCOROUTINE_SUSPENDED",
   .var .astore suspendedSlot, .var .aload "this", .opcode .getfield, .opcode .tableswitch]

/-- The check that throws the exception of a failed result. -/
def resultCheck : List Expectation :=
  [.opcode .aload, .opcode .dup, .type .instanceof resultFailure, .opcode .ifeq,
   .type .checkcast resultFailure, .opcode .getfield, .opcode .athrow, .opcode .pop]

/-- The comparison of a call's result with the marker. -/
def comparison : List Expectation :=
  [.var .aload suspendedSlot, .opcode .ifAcmpne]

/-- The return of the marker. -/
def suspension : List Expectation :=
  [.var .aload suspendedSlot, .opcode .areturn]

/-- The throw of the exception for a call to resume before the start. -/
def resumeFault : List Expectation :=
  [.type .new illegalState, .opcode .dup,
   .ldcString "call to 'resume' before 'invoke' with coroutine",
   .invokeSuper illegalState "(Ljava/lang/String;)V", .opcode .athrow]

/-- The end of the first check of the result behind `index` that is followed by a reload of the
    result which falls through to the continuation. -/
def resumedEnd? (m : Matcher) (continuation index : Nat) : Option Nat := do
  let last ← ((m.moveTo index).expectAll (resultCheck ++ [.opcode .aload])).position?
  if m.body.nextOpcode? last = some continuation then some last else none

/-- The end of the first such check that is found from an index on. -/
def findResumedEnd? (m : Matcher) (first continuation : Nat) : Option Nat :=
  (List.range' first (m.body.size - first)).findSome? (resumedEnd? m continuation)

/-- The continuation of the suspension point whose comparison comes next behind `index` and whose
    resumption is the place that a case of the table leads to. -/
def continuation? (m : Matcher) (resumption : Label) (index : Nat) : Option Nat :=
  let compared := (m.moveTo index).expectAll comparison
  match compared.node? with
  | some (.jump _ target) => do
    let continuation ← m.body.labelTarget? target
    let last ← (compared.expectAll suspension).position?
    let resumed ← m.body.nextOpcode? last
    if m.body.labelTarget? resumption = some resumed then some continuation else none
  | _ => none

/-- The first index from which such a comparison is found, with the continuation. -/
def findSuspension? (m : Matcher) (resumption : Label) (first : Nat) : Option (Nat × Nat) :=
  (List.range' first (m.body.size - first)).findSome? fun index =>
    (continuation? m resumption index).map (index, ·)

/-- The ranges of the suspension points of the given cases. Each is looked for behind the index at
    which the one before it was found. -/
def suspensionRanges? (m : Matcher) : List Label → Nat → Option (List IgnoreRange)
  | [], _ => some []
  | resumption :: resumptions, first => do
    let (index, continuation) ← findSuspension? m resumption first
    let last ← findResumedEnd? m index continuation
    let ranges ← suspensionRanges? m resumptions (index + 1)
    return ⟨index, last⟩ :: ranges

/-- The ranges of a state machine: the fault, the dispatch, and the suspension points. -/
def stateMachine? (body : Body) : Option (List IgnoreRange) := do
  let dispatched := (Matcher.start body).expectAll prologue
  let switch ← dispatched.position?
  let .tableSwitch _ _ cases otherwise ← body.get? switch | none
  let checked := dispatched.expectAll resultCheck
  let checkedEnd ← checked.position?
  let suspensions ← suspensionRanges? checked cases.tail checkedEnd
  let faultStart ← body.labelIndex? otherwise
  let faultEnd ← (((Matcher.start body).moveTo faultStart).expectAll resumeFault).position?
  return ⟨faultStart, faultEnd⟩ :: ⟨switch, checkedEnd⟩ :: suspensions

end BranchSieve.Coroutine
