import BranchSieve.Coroutine
import BranchSieve.Proofs.Matcher.Chain

/-!
# The skeleton of a state machine

What a state machine is, said about the instructions of a body and without a scan: the dispatch with
the first check of the result, a suspension point for each further case of the table, and the fault
that the default leads to. The suspension points stand in the order of the table, but nothing is
said about which of several candidates is taken.
-/

namespace BranchSieve.Coroutine

/-- The fetch of the marker into `slot` and the dispatch over the cases. -/
def IsDispatch (slot : UInt16) (cases : List Label) (otherwise : Label) (nodes : List Node) :
    Prop :=
  ∃ descriptor this field min max,
    nodes = [.method .invokestatic "kotlin/coroutines/intrinsics/IntrinsicsKt"
        "getCOROUTINE_SUSPENDED" descriptor,
      .var .astore slot, .var .aload this, field, .tableSwitch min max cases otherwise] ∧
    field.opcode? = some .getfield

/-- The check that throws the exception of a failed result. -/
def IsResultCheck (nodes : List Node) : Prop :=
  ∃ load dup branch field throw pop : Node,
    nodes = [load, dup, .type .instanceof "kotlin/Result$Failure", branch,
      .type .checkcast "kotlin/Result$Failure", field, throw, pop] ∧
    load.opcode? = some .aload ∧ dup.opcode? = some .dup ∧ branch.opcode? = some .ifeq ∧
    field.opcode? = some .getfield ∧ throw.opcode? = some .athrow ∧ pop.opcode? = some .pop

/-- The comparison of a call's result with the marker in `slot`, which goes on at `target`, and the
    return of the marker. -/
def IsComparison (slot : UInt16) (target : Label) (nodes : List Node) : Prop :=
  ∃ back : Node,
    nodes = [.var .aload slot, .jump .ifAcmpne target, .var .aload slot, back] ∧
    back.opcode? = some .areturn

/-- The throw of the exception for a call to resume before the start. -/
def IsResumeFault (nodes : List Node) : Prop :=
  ∃ dup throw : Node,
    nodes = [.type .new "java/lang/IllegalStateException", dup,
      .ldc (.string "call to 'resume' before 'invoke' with coroutine"),
      .method .invokespecial "java/lang/IllegalStateException" "<init>" "(Ljava/lang/String;)V",
      throw] ∧
    dup.opcode? = some .dup ∧ throw.opcode? = some .athrow

theorem isMarker_eq_false_of_opcode? {node : Node} {op : Opcode} (h : node.opcode? = some op) :
    node.isMarker = false := by
  rw [Insn.isMarker, h]
  rfl

/-- A dispatch ends with its table. -/
theorem IsDispatch.exists_eq_tableSwitch {slot : UInt16} {cases : List Label} {otherwise : Label}
    {front : List Node} {node : Node} (h : IsDispatch slot cases otherwise (front ++ [node])) :
    ∃ min max, node = .tableSwitch min max cases otherwise := by
  obtain ⟨_, _, _, min, max, split, -⟩ := h
  obtain ⟨-, only⟩ := List.append_inj' (show _ = [_, _, _, _] ++ [_] from split) rfl
  exact ⟨min, max, (List.cons.inj only).1⟩

/-- A check of the result has no markers in it. -/
theorem IsResultCheck.isMarker_eq_false {nodes : List Node} (h : IsResultCheck nodes) :
    ∀ node ∈ nodes, node.isMarker = false := by
  obtain ⟨load, dup, branch, field, throw, pop, rfl, isLoad, isDup, isBranch, isField, isThrow,
    isPop⟩ := h
  simp only [List.mem_cons, List.not_mem_nil, or_false, forall_eq_or_imp, forall_eq]
  exact ⟨isMarker_eq_false_of_opcode? isLoad, isMarker_eq_false_of_opcode? isDup, rfl,
    isMarker_eq_false_of_opcode? isBranch, rfl, isMarker_eq_false_of_opcode? isField,
    isMarker_eq_false_of_opcode? isThrow, isMarker_eq_false_of_opcode? isPop⟩

/-- A fault has no markers in it. -/
theorem IsResumeFault.isMarker_eq_false {nodes : List Node} (h : IsResumeFault nodes) :
    ∀ node ∈ nodes, node.isMarker = false := by
  obtain ⟨dup, throw, rfl, isDup, isThrow⟩ := h
  simp only [List.mem_cons, List.not_mem_nil, or_false, forall_eq_or_imp, forall_eq]
  exact ⟨rfl, isMarker_eq_false_of_opcode? isDup, rfl, rfl, isMarker_eq_false_of_opcode? isThrow⟩

theorem IsResultCheck.length_eq {nodes : List Node} (h : IsResultCheck nodes) :
    nodes.length = 8 := by
  obtain ⟨_, _, _, _, _, _, rfl, -⟩ := h
  rfl

theorem IsResumeFault.length_eq {nodes : List Node} (h : IsResumeFault nodes) :
    nodes.length = 5 := by
  obtain ⟨_, _, rfl, -⟩ := h
  rfl

/-- A check of the result creates nothing. -/
theorem IsResultCheck.opcode?_ne_new {nodes : List Node} (h : IsResultCheck nodes) :
    ∀ node ∈ nodes, node.opcode? ≠ some .new := by
  obtain ⟨load, dup, branch, field, throw, pop, rfl, isLoad, isDup, isBranch, isField, isThrow,
    isPop⟩ := h
  simp only [List.mem_cons, List.not_mem_nil, or_false, forall_eq_or_imp, forall_eq]
  rw [isLoad, isDup, isBranch, isField, isThrow, isPop]
  decide

/-- A fault starts with the creation of its exception. -/
theorem IsResumeFault.opcode?_head {nodes : List Node} {first : Node}
    (h : IsResumeFault (first :: nodes)) : first.opcode? = some .new := by
  obtain ⟨_, _, split, -⟩ := h
  rw [(List.cons.inj split).1]
  rfl

/-- A fault has no table. -/
theorem IsResumeFault.opcode?_ne_tableswitch {nodes : List Node} (h : IsResumeFault nodes) :
    ∀ node ∈ nodes, node.opcode? ≠ some .tableswitch := by
  obtain ⟨dup, throw, rfl, isDup, isThrow⟩ := h
  simp only [List.mem_cons, List.not_mem_nil, or_false, forall_eq_or_imp, forall_eq]
  rw [isDup, isThrow]
  decide

/-- The comparison comes next behind `index`, it goes on at `continuation`, and the instruction
    behind it is the one that the case `resumption` leads to. -/
def ComparesAt (body : Body) (slot : UInt16) (resumption : Label) (index continuation : Nat) :
    Prop :=
  ∃ comparison next rest target,
    body.instructionsFrom (index + 1) = comparison ++ next :: rest ∧
    IsComparison slot target (comparison.map Prod.fst) ∧
    body.labelTarget? resumption = some next.2 ∧
    body.labelTarget? target = some continuation

/-- The instructions in front of `continuation` are a check of the result and, at `last`, the reload
    of the result, and all of them stand behind `index`. -/
def ReloadsBefore (body : Body) (index continuation last : Nat) : Prop :=
  body.HasOpcode continuation ∧
  ∃ before check reload,
    body.instructionsBetween (index + 1) continuation = before ++ check ++ [(reload, last)] ∧
    IsResultCheck (check.map Prod.fst) ∧ reload.opcode? = some .aload

/-- From `index` a suspension point is seen that is resumed at the case `resumption`. -/
def SuspendsAt (body : Body) (slot : UInt16) (resumption : Label) (index : Nat) : Prop :=
  ∃ continuation last,
    ComparesAt body slot resumption index continuation ∧ ReloadsBefore body index continuation last

/-- The label `otherwise` is placed, and the fault comes next behind its place. -/
def FaultsAt (body : Body) (otherwise : Label) : Prop :=
  ∃ start fault rest,
    body.labelIndex? otherwise = some start ∧
    body.instructionsFrom (start + 1) = fault ++ rest ∧
    IsResumeFault (fault.map Prod.fst)

/-- The body is a state machine. The first case of the table starts the code, so it has no
    suspension point. -/
def IsStateMachine (body : Body) : Prop :=
  ∃ slot cases otherwise dispatch check pop checkedEnd rest,
    body.instructionsFrom 0 = dispatch ++ check ++ (pop, checkedEnd) :: rest ∧
    IsDispatch slot cases otherwise (dispatch.map Prod.fst) ∧
    IsResultCheck (check.map Prod.fst ++ [pop]) ∧
    (∃ indices : List Nat, indices.Pairwise (· < ·) ∧ (∀ index ∈ indices, checkedEnd ≤ index) ∧
      List.Forall₂ (SuspendsAt body slot) cases.tail indices) ∧
    FaultsAt body otherwise

end BranchSieve.Coroutine
