import BranchSieve.Proofs.Bytecode.Labels
import BranchSieve.Proofs.Coroutine.Places

/-!
# What the ranges of a state machine extend over

Every range starts and ends at a node of the body. The range of the dispatch holds the table and the
check behind it, which are nine instructions, and that of the fault holds its five. The two runs
have none in common, wherever the fault stands: the first of each is of a kind that does not occur
in the other.
-/

namespace BranchSieve.Coroutine

variable {body : Body} {slot : UInt16} {first : Nat}

/-- An index in front of a comparison is one of the body. -/
theorem ComparesAt.lt_size {resumption : Label} {index continuation : Nat}
    (h : ComparesAt body slot resumption index continuation) : index < body.size := by
  obtain ⟨_, next, _, _, ahead, -⟩ := h
  have mem : next ∈ body.instructionsFrom (index + 1) := by simp [ahead]
  obtain ⟨le, there, -⟩ := Body.mem_instructionsFrom.1 mem
  exact Nat.lt_of_succ_lt (Nat.lt_of_le_of_lt le (Body.lt_size_of_get? there))

theorem Scans.lt_size {resumptions : List Label} {ranges : List IgnoreRange}
    (scans : Scans body slot resumptions first ranges) :
    ∀ range ∈ ranges, range.first < body.size ∧ range.last < body.size := by
  induction scans with
  | nil => simp
  | cons found resumed _ ih =>
    obtain ⟨_, there, -⟩ := resumed.hasOpcode_last
    exact List.forall_mem_cons.2 ⟨⟨found.seen.lt_size, Body.lt_size_of_get? there⟩, ih⟩

/-- Every range that is found has both of its ends in the body. -/
theorem lt_size_of_stateMachine? {ranges : List IgnoreRange}
    (recognized : stateMachine? body = some ranges) :
    ∀ range ∈ ranges, range.first < body.size ∧ range.last < body.size := by
  obtain ⟨_, _, _, _, dispatch, switchNode, switch, check, pop, checkedEnd, _, _, start, fault,
    throw, faultEnd, _, ahead, -, -, suspended, placed, ahead', -, rfl⟩ :=
    stateMachine?_eq_some_iff.1 recognized
  have inside : ∀ {node place index}, (node, place) ∈ body.instructionsFrom index →
      place < body.size :=
    fun mem => Body.lt_size_of_get? (Body.mem_instructionsFrom.1 mem).2.1
  have table : (switchNode, switch) ∈ body.instructionsFrom 0 := by simp [ahead]
  have checked : (pop, checkedEnd) ∈ body.instructionsFrom 0 := by simp [ahead]
  have thrown : (throw, faultEnd) ∈ body.instructionsFrom (start + 1) := by simp [ahead']
  have label := (Body.labelIndex?_eq_some_iff.1 placed).1
  have scans := (suspensionRanges?_eq_some_iff rfl).1 suspended
  exact List.forall_mem_cons.2 ⟨⟨Body.lt_size_of_get? label, inside thrown⟩,
    List.forall_mem_cons.2 ⟨⟨inside table, inside checked⟩, scans.lt_size⟩⟩

/-- Some instructions of a body that lie in a range, in their order. -/
structure RunsIn (body : Body) (range : IgnoreRange) (run : List (Node × Nat)) : Prop where
  sublist : run.Sublist (body.instructionsFrom 0)
  covered : ∀ instruction ∈ run, range.first ≤ instruction.2 ∧ instruction.2 ≤ range.last

/-- A part of the instructions runs from its first member to its last. -/
theorem runsIn_of_part {front part back : List (Node × Nat)} {node last : Node} {start index : Nat}
    (split : body.instructionsFrom 0 = front ++ (node, start) :: (part ++ [(last, index)]) ++ back)
    {range : IgnoreRange} (le : range.first ≤ start) (ends : index = range.last) :
    RunsIn body range ((node, start) :: (part ++ [(last, index)])) := by
  have split' : body.instructionsFrom 0 =
      front ++ ((node, start) :: part ++ [(last, index)]) ++ back := split
  constructor
  · rw [split]
    exact (List.sublist_append_right front _).trans (List.sublist_append_left _ back)
  · intro instruction mem
    subst ends
    exact ⟨Nat.le_trans le (Body.first_le_of_mem split mem), Body.le_last_of_mem split' mem⟩

/-- The dispatch and the fault have nine and five instructions, of which they share none. -/
theorem exists_disjoint_runs {ranges : List IgnoreRange}
    (recognized : stateMachine? body = some ranges) :
    ∃ fault ∈ ranges, ∃ dispatch ∈ ranges, ∃ nine five,
      RunsIn body dispatch nine ∧ nine.length = 9 ∧ RunsIn body fault five ∧ five.length = 5 ∧
      nine.Disjoint five := by
  obtain ⟨_, _, cases, otherwise, front, _, switch, check, pop, checkedEnd, rest, _, start, fault,
    throw, faultEnd, after, ahead, isDispatch, isCheck, -, -, ahead', isFault, rfl⟩ :=
    stateMachine?_eq_some_iff.1 recognized
  obtain ⟨min, max, rfl⟩ := isDispatch.exists_eq_tableSwitch
  have length := isCheck.length_eq
  have length' := isFault.length_eq
  -- A fault has a first instruction, the creation, which tells it from the dispatch.
  cases fault with
  | nil => simp at length'
  | cons first fault =>
    obtain ⟨creation, place⟩ := first
    simp only [List.length_append, List.length_map, List.length_cons, List.length_nil]
      at length length'
    have split : body.instructionsFrom 0 = front ++
        (.tableSwitch min max cases otherwise, switch) ::
          (check ++ [(pop, checkedEnd)]) ++ rest := by
      simp [ahead]
    -- The fault is known from its label on, but the two are compared among all instructions.
    have split' : body.instructionsFrom 0 = body.instructionsBetween 0 (start + 1) ++
        (creation, place) :: (fault ++ [(throw, faultEnd)]) ++ after := by
      rw [Body.instructionsFrom_eq_append body (Nat.zero_le (start + 1)), ahead']
      simp
    have behind : (creation, place) ∈ body.instructionsFrom (start + 1) := by simp [ahead']
    have le : start ≤ place := Nat.le_of_succ_le (Body.mem_instructionsFrom.1 behind).1
    refine ⟨⟨start, faultEnd⟩, by simp, ⟨switch, checkedEnd⟩, by simp, _, _,
      runsIn_of_part split (Nat.le_refl _) rfl, by simp [length], runsIn_of_part split' le rfl,
      by simp [length'], Body.disjoint_of_first_notMem split split' ?_ ?_⟩
    · intro mem
      have table := List.mem_map_of_mem (f := Prod.fst) mem
      exact isFault.opcode?_ne_tableswitch _ (by simpa using table) rfl
    · intro mem
      have isNew : creation.opcode? = some .new := IsResumeFault.opcode?_head isFault
      rcases List.mem_cons.1 mem with same | mem
      · rw [(Prod.mk.inj same).1] at isNew
        cases isNew
      · have checked := List.mem_map_of_mem (f := Prod.fst) mem
        exact isCheck.opcode?_ne_new _ (by simpa using checked) isNew

end BranchSieve.Coroutine
