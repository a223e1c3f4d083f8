import BranchSieve.Proofs.Bytecode.Replacement
import BranchSieve.Proofs.Coroutine.Shape

/-!
# The order of the cases

The scan goes forward only, so the places where the cases resume ascend with the cases. A table
whose further cases are permuted is recognized exactly if the permuted cases lead to the same places
in the same order: both sequences ascend and hold the same places. The scan then finds the same
ranges, since it asks of a case only where it leads.
-/

namespace BranchSieve.Coroutine

variable {body : Body} {slot : UInt16} {resumption resumption' : Label}
  {resumptions resumptions' : List Label} {first index continuation last : Nat}
  {ranges : List IgnoreRange}

/-! ## The places where the cases resume -/

/-- A case resumes at the fifth instruction behind the start of its range. -/
theorem Scans.map_labelTarget?_eq (scans : Scans body slot resumptions first ranges) :
    resumptions.map body.labelTarget? =
      ranges.map fun range => body.placeFrom? (range.first + 1) 4 := by
  induction scans with
  | nil => rfl
  | cons found _ _ ih =>
    obtain ⟨_, leads, fifth⟩ := found.seen.labelTarget?_eq
    rw [List.map_cons, List.map_cons, ih, leads, fifth]

theorem Scans.isSome_labelTarget? (scans : Scans body slot resumptions first ranges) :
    ∀ place ∈ resumptions.map body.labelTarget?, place.isSome := by
  induction scans with
  | nil => simp
  | cons found _ _ ih =>
    obtain ⟨_, leads, -⟩ := found.seen.labelTarget?_eq
    exact List.forall_mem_cons.2 ⟨by rw [leads]; rfl, ih⟩

/-- The places where the cases resume ascend, though not strictly. -/
theorem Scans.pairwise_labelTarget? (scans : Scans body slot resumptions first ranges) :
    (resumptions.map body.labelTarget?).Pairwise fun a b => ∀ p ∈ a, ∀ q ∈ b, p ≤ q := by
  rw [scans.map_labelTarget?_eq, List.pairwise_map]
  refine scans.pairwise_first.imp fun lt p found q found' => ?_
  exact Body.placeFrom?_mono (Nat.succ_le_succ (Nat.le_of_lt lt)) found found'

/-- Two scans for the same places find these in the same order. -/
theorem Scans.map_labelTarget?_eq_of_perm {other : Body} {slot' : UInt16} {first' : Nat}
    {ranges' : List IgnoreRange} (scans : Scans body slot resumptions first ranges)
    (scans' : Scans other slot' resumptions' first' ranges')
    (leads : ∀ label, other.labelTarget? label = body.labelTarget? label)
    (perm : resumptions'.Perm resumptions) :
    resumptions'.map body.labelTarget? = resumptions.map body.labelTarget? := by
  have ascending' := scans'.pairwise_labelTarget?
  rw [funext leads] at ascending'
  refine List.Perm.eq_of_pairwise ?_ ascending' scans.pairwise_labelTarget? (perm.map _)
  intro a b mem mem' le ge
  obtain ⟨q, rfl⟩ := Option.isSome_iff_exists.1 (scans.isSome_labelTarget? b mem')
  obtain ⟨p, rfl⟩ := Option.isSome_iff_exists.1
    (scans.isSome_labelTarget? a ((perm.map body.labelTarget?).mem_iff.1 mem))
  rw [Nat.le_antisymm (le p rfl q rfl) (ge q rfl p rfl)]

/-! ## A replacement in front of the scan -/

section Replacement

variable {place : Nat} {node : Node} (carried : body.HasOpcode place)
  (opcode : node.isMarker = false)

include carried opcode

theorem comparesAt_replace_iff (ahead : place ≤ index)
    (same : body.labelTarget? resumption' = body.labelTarget? resumption) :
    ComparesAt (body.replace place node) slot resumption' index continuation ↔
      ComparesAt body slot resumption index continuation := by
  have behind := Body.instructionsFrom_replace_of_lt carried opcode (Nat.lt_succ_of_le ahead)
  simp only [ComparesAt, behind, Body.labelTarget?_replace carried opcode, same]

theorem reloadsBefore_replace_iff (ahead : place ≤ index) :
    ReloadsBefore (body.replace place node) index continuation last ↔
      ReloadsBefore body index continuation last := by
  simp only [ReloadsBefore, Body.hasOpcode_replace carried opcode,
    Body.instructionsBetween_replace_of_lt carried opcode (Nat.lt_succ_of_le ahead)]

/-- The scan for cases that lead to the same places finds the same ranges. -/
theorem Scans.replace (scans : Scans body slot resumptions first ranges) (ahead : place ≤ first)
    (same : resumptions'.map body.labelTarget? = resumptions.map body.labelTarget?) :
    Scans (body.replace place node) slot resumptions' first ranges := by
  induction scans generalizing resumptions' with
  | nil =>
    rw [List.map_eq_nil_iff.1 same]
    exact .nil
  | @cons resumption resumptions first continuation range ranges found resumed _ ih =>
    obtain ⟨resumption', resumptions', rfl, one, others⟩ := List.map_eq_cons_iff.1 same
    have reached : place ≤ range.first := Nat.le_trans ahead found.ge
    have found' :
        FirstSeen (body.replace place node) slot resumption' first range.first continuation := by
      refine ⟨found.ge, (comparesAt_replace_iff carried opcode reached one).2 found.seen, ?_⟩
      intro earlier other ge lt seen
      refine found.unseen earlier other ge lt ?_
      exact (comparesAt_replace_iff carried opcode (Nat.le_trans ahead ge) one).1 seen
    exact .cons found' ((reloadsBefore_replace_iff carried opcode reached).2 resumed)
      (ih (Nat.le_succ_of_le reached) others)

end Replacement

/-! ## Other cases in the table -/

section Table

variable {cases cases' : List Label} {otherwise otherwise' : Label} {min max : Int32} {switch : Nat}
  {fault dispatch : IgnoreRange} {suspensions : List IgnoreRange}

theorem IsDispatch.of_cases {front : List Node} {min' max' : Int32}
    (h : IsDispatch slot cases otherwise (front ++ [.tableSwitch min max cases otherwise])) :
    IsDispatch slot cases' otherwise (front ++ [.tableSwitch min' max' cases' otherwise]) := by
  obtain ⟨descriptor, this, field, _, _, split, isField⟩ := h
  obtain ⟨rfl, -⟩ := List.append_inj' (show _ = [_, _, _, _] ++ [_] from split) rfl
  exact ⟨descriptor, this, field, min', max', rfl, isField⟩

/-- The fifth instruction is the table of the parts. -/
theorem Assembly.eq_of_table
    (assembly : Assembly body slot cases' otherwise' fault dispatch suspensions)
    (table : (body.instructionsFrom 0)[4]? = some (.tableSwitch min max cases otherwise, switch)) :
    cases' = cases ∧ otherwise' = otherwise ∧ dispatch.first = switch := by
  obtain ⟨_, _, there⟩ := assembly.exists_tableSwitch
  rw [table] at there
  simp only [Option.some.injEq, Prod.mk.injEq, Insn.tableSwitch.injEq] at there
  exact ⟨there.1.2.2.1.symm, there.1.2.2.2.symm, there.2.symm⟩

/-- No instruction of a fault is a table, so a fault has none to replace. -/
theorem IsResumeFault.nodesFrom_replace_table
    (there : body.get? switch = some (.tableSwitch min max cases otherwise))
    (h : IsResumeFault (body.nodesFrom first 5)) :
    (body.replace switch (.tableSwitch min max cases' otherwise)).nodesFrom first 5 =
      body.nodesFrom first 5 := by
  rw [Body.nodesFrom, Body.instructionsFrom_replace ⟨_, there, rfl⟩ rfl, ← List.map_take,
    Body.map_exchange_of_forall_ne, Body.nodesFrom]
  rintro ⟨node, place⟩ mem rfl
  have found := (Body.mem_instructionsFrom.1 (List.mem_of_mem_take mem)).2.1
  obtain rfl := Option.some.inj (there.symm.trans found)
  exact h.opcode?_ne_tableswitch _ (List.mem_map_of_mem (f := Prod.fst) mem) rfl

/-- A dispatch stays one with other cases in its table. -/
theorem Assembly.isDispatch_replace_cases
    (assembly : Assembly body slot cases otherwise fault dispatch suspensions)
    (table : (body.instructionsFrom 0)[4]? =
      some (.tableSwitch min max cases otherwise, dispatch.first)) :
    IsDispatch slot cases' otherwise
      ((body.replace dispatch.first (.tableSwitch min max cases' otherwise)).nodesFrom 0 5) := by
  have there := (Body.mem_instructionsFrom.1 (List.mem_of_getElem? table)).2.1
  obtain ⟨front, node, count, ahead⟩ := Body.exists_split_of_placeFrom? assembly.table
  rw [ahead, ← count] at table
  obtain rfl : node = .tableSwitch min max cases otherwise := by simpa using table
  have length : ∀ last : Node, (front.map Prod.fst ++ [last]).length = 4 + 1 := by simp [count]
  have former := ((Body.nodesFrom_and_placeFrom?_iff (length _)).2 ⟨front, _, _, ahead, rfl⟩).1
  have ahead' := Body.instructionsFrom_replace_of_append ⟨_, there, rfl⟩
    (show (Insn.tableSwitch min max cases' otherwise : Node).isMarker = false from rfl) ahead
  have new := ((Body.nodesFrom_and_placeFrom?_iff (length _)).2 ⟨front, _, _, ahead', rfl⟩).1
  have dispatched := assembly.dispatched
  rw [former] at dispatched
  rw [new]
  exact dispatched.of_cases

/-- With cases that lead to the same places the parts stand where they stood. -/
theorem Assembly.replace_cases
    (assembly : Assembly body slot cases otherwise fault dispatch suspensions)
    (table : (body.instructionsFrom 0)[4]? =
      some (.tableSwitch min max cases otherwise, dispatch.first))
    (same : cases'.tail.map body.labelTarget? = cases.tail.map body.labelTarget?) :
    Assembly (body.replace dispatch.first (.tableSwitch min max cases' otherwise)) slot cases'
      otherwise fault dispatch suspensions := by
  have there := (Body.mem_instructionsFrom.1 (List.mem_of_getElem? table)).2.1
  have carried : body.HasOpcode dispatch.first := ⟨_, there, rfl⟩
  have opcode : (Insn.tableSwitch min max cases' otherwise : Node).isMarker = false := rfl
  have behind : dispatch.first ≤ dispatch.last :=
    Nat.le_of_succ_le (Body.le_of_placeFrom? assembly.checkedEnd)
  have checked :=
    Body.instructionsFrom_replace_of_lt carried opcode (Nat.lt_succ_self dispatch.first)
  exact
    { dispatched := assembly.isDispatch_replace_cases table
      table := by rw [Body.placeFrom?_replace carried opcode, assembly.table]
      checked := by rw [Body.nodesFrom, checked]; exact assembly.checked
      checkedEnd := by rw [Body.placeFrom?_replace carried opcode, assembly.checkedEnd]
      scans := assembly.scans.replace carried opcode behind same
      placed := by rw [Body.labelIndex?_replace carried opcode, assembly.placed]
      faulted := by rw [assembly.faulted.nodesFrom_replace_table there]; exact assembly.faulted
      faultEnd := by rw [Body.placeFrom?_replace carried opcode, assembly.faultEnd] }

end Table

/-- With the further cases of its table permuted, a state machine is recognized with the same ranges
    if the cases lead to the same places in the same order, and not at all if they do not. The first
    case may be any. -/
theorem stateMachine?_permute_cases {cases cases' : List Label} {otherwise : Label}
    {min max : Int32} {switch : Nat} (recognized : stateMachine? body = some ranges)
    (table : (body.instructionsFrom 0)[4]? = some (.tableSwitch min max cases otherwise, switch))
    (perm : cases'.tail.Perm cases.tail) :
    stateMachine? (body.replace switch (.tableSwitch min max cases' otherwise)) =
      if cases'.tail.map body.labelTarget? = cases.tail.map body.labelTarget? then some ranges
      else none := by
  obtain ⟨slot, _, _, fault, dispatch, suspensions, rfl, assembly⟩ :=
    stateMachine?_eq_some_iff_assembly.1 recognized
  obtain ⟨rfl, rfl, rfl⟩ := assembly.eq_of_table table
  split
  · next same =>
    exact stateMachine?_eq_some_iff_assembly.2
      ⟨slot, cases', _, fault, dispatch, suspensions, rfl, assembly.replace_cases table same⟩
  · next unlike =>
    rw [Option.eq_none_iff_forall_ne_some]
    intro ranges' recognized'
    obtain ⟨slot', shuffled, otherwise', fault', dispatch', suspensions', rfl, assembly'⟩ :=
      stateMachine?_eq_some_iff_assembly.1 recognized'
    have there := (Body.mem_instructionsFrom.1 (List.mem_of_getElem? table)).2.1
    have carried : body.HasOpcode dispatch.first := ⟨_, there, rfl⟩
    obtain ⟨rfl, -, -⟩ := assembly'.eq_of_table
      (Body.getElem?_instructionsFrom_replace carried rfl table)
    exact unlike (assembly.scans.map_labelTarget?_eq_of_perm assembly'.scans
      (Body.labelTarget?_replace carried rfl) perm)

/-- The twin cases with two labels at one place, a case for each. -/
def adjacent : Body :=
  (twins.insert 21 [.label ⟨9⟩]).replace 4 (.tableSwitch 0 2 [⟨0⟩, ⟨1⟩, ⟨9⟩] ⟨3⟩)

/-- The twin cases may change places. Cases that lead to places of their own may not. -/
theorem stateMachine?_permute_adjacent :
    stateMachine? (adjacent.replace 4 (.tableSwitch 0 2 [⟨0⟩, ⟨9⟩, ⟨1⟩] ⟨3⟩)) =
        some [⟨35, 40⟩, ⟨4, 14⟩, ⟨15, 32⟩, ⟨16, 32⟩] ∧
      stateMachine? (Layout.decoyed.body.replace 5 (.tableSwitch 0 2 [⟨0⟩, ⟨3⟩, ⟨1⟩] ⟨5⟩)) =
        none := by
  have recognized : stateMachine? adjacent = some [⟨35, 40⟩, ⟨4, 14⟩, ⟨15, 32⟩, ⟨16, 32⟩] := by
    decide +kernel
  have recognized' : stateMachine? Layout.decoyed.body =
      some [⟨68, 73⟩, ⟨5, 15⟩, ⟨30, 45⟩, ⟨49, 65⟩] := by decide +kernel
  have table : (adjacent.instructionsFrom 0)[4]? =
      some (.tableSwitch 0 2 [⟨0⟩, ⟨1⟩, ⟨9⟩] ⟨3⟩, 4) := by decide +kernel
  have table' : (Layout.decoyed.body.instructionsFrom 0)[4]? =
      some (.tableSwitch 0 2 [⟨0⟩, ⟨1⟩, ⟨3⟩] ⟨5⟩, 5) := by decide +kernel
  have swapped (a b c : Label) : [a, c, b].tail.Perm [a, b, c].tail := .swap b c []
  exact ⟨(stateMachine?_permute_cases recognized table (swapped _ _ _)).trans
      (if_pos (by decide +kernel)),
    (stateMachine?_permute_cases recognized' table' (swapped _ _ _)).trans
      (if_neg (by decide +kernel))⟩

end BranchSieve.Coroutine
