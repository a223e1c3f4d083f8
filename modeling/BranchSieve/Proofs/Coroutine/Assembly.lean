import BranchSieve.Proofs.Bytecode.Counting
import BranchSieve.Proofs.Coroutine.Extent

/-!
# The parts of a recognized body

A body is recognized with some ranges exactly if its parts stand at the places that the ranges name:
the dispatch is made of the first five instructions, the first check of the result of the next
eight, the fault of the five behind the place of the default, and the scan finds the suspension
points in between. The nodes of each part are taken by their number, so that the parts of two bodies
with the same places can be compared.
-/

namespace BranchSieve.Coroutine

variable {body : Body} {slot slot' : UInt16} {cases cases' : List Label}
  {otherwise otherwise' : Label}

theorem IsDispatch.length_eq {nodes : List Node} (h : IsDispatch slot cases otherwise nodes) :
    nodes.length = 5 := by
  obtain ⟨_, _, _, _, _, rfl, -⟩ := h
  rfl

/-- The nodes of a dispatch tell its slot and its table. -/
theorem IsDispatch.unique {nodes : List Node} (h : IsDispatch slot cases otherwise nodes)
    (h' : IsDispatch slot' cases' otherwise' nodes) :
    slot = slot' ∧ cases = cases' ∧ otherwise = otherwise' := by
  obtain ⟨_, _, _, _, _, rfl, -⟩ := h
  obtain ⟨_, _, _, _, _, same, -⟩ := h'
  simp only [List.cons.injEq, Insn.var.injEq, Insn.tableSwitch.injEq, true_and, and_true] at same
  exact ⟨same.2.1, same.2.2.2.2.2.2⟩

/-- The parts of a state machine, with the slot of its marker, its table and its ranges. -/
structure Assembly (body : Body) (slot : UInt16) (cases : List Label) (otherwise : Label)
    (fault dispatch : IgnoreRange) (suspensions : List IgnoreRange) : Prop where
  dispatched : IsDispatch slot cases otherwise (body.nodesFrom 0 5)
  table : body.placeFrom? 0 4 = some dispatch.first
  checked : IsResultCheck (body.nodesFrom (dispatch.first + 1) 8)
  checkedEnd : body.placeFrom? (dispatch.first + 1) 7 = some dispatch.last
  scans : Scans body slot cases.tail dispatch.last suspensions
  placed : body.labelIndex? otherwise = some fault.first
  faulted : IsResumeFault (body.nodesFrom (fault.first + 1) 5)
  faultEnd : body.placeFrom? (fault.first + 1) 4 = some fault.last

/-- A body is recognized with the ranges of its parts. -/
theorem stateMachine?_eq_some_iff_assembly {ranges : List IgnoreRange} :
    stateMachine? body = some ranges ↔
      ∃ slot cases otherwise fault dispatch suspensions,
        ranges = fault :: dispatch :: suspensions ∧
        Assembly body slot cases otherwise fault dispatch suspensions := by
  rw [stateMachine?_eq_some_iff]
  constructor
  · rintro ⟨slot, this, cases, otherwise, dispatch, switchNode, switch, check, pop, checkedEnd,
      rest, suspensions, start, fault, throw, faultEnd, after, ahead, isDispatch, isCheck,
      suspended, placed, ahead', isFault, rfl⟩
    have behind := (Body.eq_instructionsFrom_of_append dispatch ahead).symm
    obtain ⟨nodes, table⟩ := (Body.nodesFrom_and_placeFrom?_iff isDispatch.length_eq).2
      ⟨dispatch, switchNode, _, ahead, rfl⟩
    obtain ⟨nodes', checkedEnd'⟩ := (Body.nodesFrom_and_placeFrom?_iff isCheck.length_eq).2
      ⟨check, pop, rest, behind, rfl⟩
    obtain ⟨nodes'', faultEnd'⟩ := (Body.nodesFrom_and_placeFrom?_iff isFault.length_eq).2
      ⟨fault, throw, after, ahead', rfl⟩
    exact ⟨slot, cases, otherwise, ⟨start, faultEnd⟩, ⟨switch, checkedEnd⟩, suspensions, rfl,
      { dispatched := nodes ▸ isDispatch
        table := table
        checked := nodes' ▸ isCheck
        checkedEnd := checkedEnd'
        scans := (suspensionRanges?_eq_some_iff rfl).1 suspended
        placed := placed
        faulted := nodes'' ▸ isFault
        faultEnd := faultEnd' }⟩
  · rintro ⟨slot, cases, otherwise, fault, dispatch, suspensions, rfl, assembly⟩
    obtain ⟨front, switchNode, rest, ahead, nodes⟩ :=
      (Body.nodesFrom_and_placeFrom?_iff assembly.dispatched.length_eq).1 ⟨rfl, assembly.table⟩
    obtain ⟨check, pop, rest', behind, nodes'⟩ :=
      (Body.nodesFrom_and_placeFrom?_iff assembly.checked.length_eq).1 ⟨rfl, assembly.checkedEnd⟩
    obtain ⟨run, throw, after, ahead', nodes''⟩ :=
      (Body.nodesFrom_and_placeFrom?_iff assembly.faulted.length_eq).1 ⟨rfl, assembly.faultEnd⟩
    have joined : rest = check ++ (pop, dispatch.last) :: rest' :=
      (Body.eq_instructionsFrom_of_append front ahead).trans behind
    exact ⟨slot, slot, cases, otherwise, front, switchNode, dispatch.first, check, pop,
      dispatch.last, rest', suspensions, fault.first, run, throw, fault.last, after, joined ▸ ahead,
      nodes.symm ▸ assembly.dispatched, nodes'.symm ▸ assembly.checked,
      (suspensionRanges?_eq_some_iff rfl).2 assembly.scans, assembly.placed, ahead',
      nodes''.symm ▸ assembly.faulted, rfl⟩

/-! ## What the scan finds -/

/-- Of two lists that are related member by member, each member of the second is related to one of
    the first. -/
theorem exists_mem_left_of_forall₂ {α β : Type} {R : α → β → Prop} {list : List α} {others : List β}
    (related : List.Forall₂ R list others) : ∀ other ∈ others, ∃ member ∈ list, R member other := by
  induction related with
  | nil => simp
  | cons one _ ih =>
    refine List.forall_mem_cons.2 ⟨⟨_, List.mem_cons_self, one⟩, fun other mem => ?_⟩
    obtain ⟨member, there, both⟩ := ih other mem
    exact ⟨member, List.mem_cons_of_mem _ there, both⟩

variable {first : Nat} {resumptions : List Label} {ranges : List IgnoreRange}

/-- A range goes from an index where the comparison of a case is seen to the reload in front of the
    continuation. -/
def SuspendsOver (body : Body) (slot : UInt16) (resumption : Label) (range : IgnoreRange) : Prop :=
  ∃ continuation, ComparesAt body slot resumption range.first continuation ∧
    ReloadsBefore body range.first continuation range.last

theorem Scans.suspendsOver (scans : Scans body slot resumptions first ranges) :
    List.Forall₂ (SuspendsOver body slot) resumptions ranges := by
  induction scans with
  | nil => exact .nil
  | cons found resumed _ ih => exact .cons ⟨_, found.seen, resumed⟩ ih

/-- The scan goes forward. -/
theorem Scans.le_first (scans : Scans body slot resumptions first ranges) :
    ∀ range ∈ ranges, first ≤ range.first := by
  induction scans with
  | nil => simp
  | cons found _ _ ih =>
    refine List.forall_mem_cons.2 ⟨found.ge, fun range mem => ?_⟩
    exact Nat.le_trans found.ge (Nat.le_of_succ_le (ih range mem))

theorem Scans.pairwise_first (scans : Scans body slot resumptions first ranges) :
    ranges.Pairwise (·.first < ·.first) := by
  induction scans with
  | nil => exact .nil
  | cons _ _ rest ih => exact List.pairwise_cons.2 ⟨rest.le_first, ih⟩

namespace Assembly

variable {fault dispatch : IgnoreRange} {suspensions : List IgnoreRange}

/-- The fifth instruction of a state machine is its table. -/
theorem exists_tableSwitch
    (assembly : Assembly body slot cases otherwise fault dispatch suspensions) :
    ∃ min max, (body.instructionsFrom 0)[4]? =
      some (.tableSwitch min max cases otherwise, dispatch.first) := by
  obtain ⟨front, node, rest, ahead, nodes⟩ :=
    (Body.nodesFrom_and_placeFrom?_iff assembly.dispatched.length_eq).1 ⟨rfl, assembly.table⟩
  have isDispatch := assembly.dispatched
  rw [← nodes] at isDispatch
  have count : front.length = 4 := by simpa using isDispatch.length_eq
  obtain ⟨min, max, rfl⟩ := isDispatch.exists_eq_tableSwitch
  exact ⟨min, max, by simp [ahead, ← count]⟩

/-- The suspension points stand behind the table. -/
theorem first_lt (assembly : Assembly body slot cases otherwise fault dispatch suspensions)
    {range : IgnoreRange} (mem : range ∈ suspensions) : dispatch.first < range.first :=
  Nat.lt_of_lt_of_le (Body.le_of_placeFrom? assembly.checkedEnd) (assembly.scans.le_first range mem)

end Assembly

end BranchSieve.Coroutine
