import BranchSieve.Proofs.Coroutine.Parts
import Mathlib.Data.List.Forall2
import Mathlib.Data.Nat.Find

/-!
# Recognition is sound and complete

The scan takes the first comparison that it meets and never returns to an earlier decision, and yet
it finds a state machine whenever there is one. A case of the table leads to one instruction only,
and so the instruction in front of it, the return behind the comparison, is known from the case. Two
indices from which a comparison for the same case is seen differ in markers only; they go on at the
same continuation, and the check in front of the continuation stands behind both. So an assignment
of indices to cases is never worse for being smaller.
-/

namespace BranchSieve.Coroutine

variable {m : Matcher} {slot : UInt16}

/-- Whatever index a comparison can be seen from, the scan sees one from there or from earlier
    on. -/
theorem exists_findSuspension?_of_comparesAt (bound : m.bindings.lookup suspendedSlot = some slot)
    {resumption : Label} {first index continuation : Nat} (ge : first ≤ index)
    (h : ComparesAt m.body slot resumption index continuation) :
    ∃ found, found ≤ index ∧ findSuspension? m resumption first = some (found, continuation) := by
  classical
  have seen :
      ∃ earlier, first ≤ earlier ∧ ∃ other, ComparesAt m.body slot resumption earlier other :=
    ⟨index, ge, continuation, h⟩
  obtain ⟨ge', other, h'⟩ := Nat.find_spec seen
  refine ⟨Nat.find seen, Nat.find_min' seen ⟨ge, continuation, h⟩,
    (findSuspension?_eq_some_iff bound).2 ⟨ge', ?_, fun earlier third ge'' lt sees => ?_⟩⟩
  · rw [(h.continuation_unique h').1]
    exact h'
  · exact Nat.find_min seen lt ⟨ge'', third, sees⟩

/-- The scan finds all suspension points exactly if they can be seen from ascending indices. -/
theorem isSome_suspensionRanges?_iff (bound : m.bindings.lookup suspendedSlot = some slot)
    {resumptions : List Label} {first : Nat} :
    (suspensionRanges? m resumptions first).isSome ↔
      ∃ indices : List Nat, indices.Pairwise (· < ·) ∧ (∀ index ∈ indices, first ≤ index) ∧
        List.Forall₂ (SuspendsAt m.body slot) resumptions indices := by
  induction resumptions generalizing first with
  | nil => exact iff_of_true rfl ⟨[], .nil, by simp, .nil⟩
  | cons resumption resumptions ih =>
    constructor
    · intro h
      obtain ⟨ranges, found⟩ := Option.isSome_iff_exists.1 h
      obtain ⟨⟨index, continuation⟩, here, found⟩ := Option.bind_eq_some_iff.1 found
      obtain ⟨last, checked, found⟩ := Option.bind_eq_some_iff.1 found
      obtain ⟨others, rest, -⟩ := Option.bind_eq_some_iff.1 found
      obtain ⟨ge, sees, -⟩ := (findSuspension?_eq_some_iff bound).1 here
      obtain ⟨indices, sorted, lower, points⟩ := ih.1 (Option.isSome_iff_exists.2 ⟨others, rest⟩)
      refine ⟨index :: indices, List.pairwise_cons.2 ⟨lower, sorted⟩, ?_,
        .cons ⟨continuation, last, sees, findResumedEnd?_eq_some_iff.1 checked⟩ points⟩
      intro other mem
      rcases List.mem_cons.1 mem with rfl | mem
      · exact ge
      · exact Nat.le_trans ge (Nat.le_of_succ_le (lower other mem))
    · intro given
      rcases given with ⟨indices, sorted, lower, points⟩
      obtain ⟨index, indices, point, others, rfl⟩ := List.forall₂_cons_left_iff.1 points
      obtain ⟨continuation, last, sees, reloads⟩ := point
      obtain ⟨above, sorted⟩ := List.pairwise_cons.1 sorted
      -- The scan may see the comparison earlier, from a marker in front of it; what is left to it
      -- contains what is left behind `index`.
      obtain ⟨found, le, here⟩ :=
        exists_findSuspension?_of_comparesAt bound (lower index List.mem_cons_self) sees
      have checked : findResumedEnd? m found continuation = some last :=
        findResumedEnd?_eq_some_iff.2 (reloads.mono le)
      have rest : (suspensionRanges? m resumptions (found + 1)).isSome :=
        ih.2 ⟨indices, sorted, fun other mem => Nat.lt_of_le_of_lt le (above other mem), others⟩
      obtain ⟨ranges, rest⟩ := Option.isSome_iff_exists.1 rest
      simp [suspensionRanges?, here, checked, rest]

/-- The scan looks at the body and at the slot of the marker only. -/
theorem suspensionRanges?_congr (m m' : Matcher) (slot : UInt16) (body : m.body = m'.body)
    (bound : m.bindings.lookup suspendedSlot = some slot)
    (bound' : m'.bindings.lookup suspendedSlot = some slot) (resumptions : List Label)
    (first : Nat) :
    suspensionRanges? m resumptions first = suspensionRanges? m' resumptions first := by
  induction resumptions generalizing first with
  | nil => rfl
  | cons resumption resumptions ih =>
    have compared : findSuspension? m resumption first = findSuspension? m' resumption first := by
      ext ⟨index, continuation⟩
      rw [findSuspension?_eq_some_iff bound, findSuspension?_eq_some_iff bound', body]
    have resumed : ∀ index continuation,
        findResumedEnd? m index continuation = findResumedEnd? m' index continuation := by
      intro index continuation
      ext last
      rw [findResumedEnd?_eq_some_iff, findResumedEnd?_eq_some_iff, body]
    simp only [suspensionRanges?, compared, resumed, ih]

/-- The matcher behind the dispatch of a state machine. -/
def dispatchedAt (body : Body) (slot this : UInt16) (switch : Nat) : Matcher :=
  ⟨body, .on switch, [("this", this), (suspendedSlot, slot)]⟩

theorem position?_prologue_iff {body : Body} {switch : Nat} :
    ((Matcher.start body).expectAll prologue).position? = some switch ↔
      ∃ slot this,
        (Matcher.start body).expectAll prologue = dispatchedAt body slot this switch := by
  constructor
  · intro position
    have dispatched := Matcher.expectAll_eq_on_of_position? position
    obtain ⟨_, _, _, -, met⟩ :=
      (Matcher.expectAll_eq_on_iff (by simp [prologue])).1 dispatched
    obtain ⟨descriptor, slot, this, field, _, -, -, -, bound⟩ := meetAll?_prologue.1 met
    rw [bound] at dispatched
    exact ⟨slot, this, dispatched⟩
  · intro h
    rcases h with ⟨slot, this, dispatched⟩
    rw [dispatched]
    rfl

/-- The dispatch is matched where its table stands. -/
theorem exists_eq_dispatchedAt_iff {body : Body} {slot : UInt16} {switch : Nat} {min max : Int32}
    {cases : List Label} {otherwise : Label} :
    (∃ this, (Matcher.start body).expectAll prologue = dispatchedAt body slot this switch) ∧
        body.get? switch = some (.tableSwitch min max cases otherwise) ↔
      ∃ dispatch rest,
        body.instructionsFrom 0 =
          dispatch ++ (.tableSwitch min max cases otherwise, switch) :: rest ∧
        IsDispatch slot cases otherwise
          (dispatch.map Prod.fst ++ [.tableSwitch min max cases otherwise]) := by
  constructor
  · intro h
    rcases h with ⟨⟨this, dispatched⟩, there⟩
    obtain ⟨dispatch, node, rest, ahead, met⟩ :=
      (Matcher.expectAll_eq_on_iff (by simp [prologue])).1 dispatched
    obtain ⟨descriptor, _, self, field, _, split, isField, -, bound⟩ := meetAll?_prologue.1 met
    obtain rfl : node = .tableSwitch min max cases otherwise :=
      Option.some.inj ((Matcher.get?_of_ahead dispatch ahead).symm.trans there)
    obtain ⟨first, -⟩ := List.append_inj' (show _ = [_, _, _, _] ++ [_] from split) rfl
    simp only [List.cons.injEq, Prod.mk.injEq, true_and, and_true] at bound
    refine ⟨dispatch, rest, ahead, descriptor, self, field, min, max, ?_, isField⟩
    rw [first, bound.2]
    rfl
  · intro h
    rcases h with ⟨dispatch, rest, ahead, descriptor, this, field, least, greatest, split, isField⟩
    refine ⟨⟨this, ?_⟩, Matcher.get?_of_ahead (m := Matcher.start body) dispatch ahead⟩
    exact (Matcher.expectAll_eq_on_iff (by simp [prologue])).2 ⟨dispatch, _, rest, ahead,
      meetAll?_prologue.2 ⟨descriptor, slot, this, field, _, split, isField, rfl, rfl⟩⟩

/-- The check of the result is matched at the node behind its throw. -/
theorem position?_resultCheck_iff {last : Nat} :
    (m.expectAll resultCheck).position? = some last ↔
      ∃ check pop rest, m.ahead = check ++ (pop, last) :: rest ∧
        IsResultCheck (check.map Prod.fst ++ [pop]) := by
  simp only [Matcher.position?_expectAll_eq_some_iff (show resultCheck ≠ [] by simp [resultCheck]),
    meetAll?_resultCheck]
  constructor
  · intro h
    rcases h with ⟨check, pop, rest, _, ahead, isCheck, -⟩
    exact ⟨check, pop, rest, ahead, isCheck⟩
  · intro h
    rcases h with ⟨check, pop, rest, ahead, isCheck⟩
    exact ⟨check, pop, rest, _, ahead, isCheck, rfl⟩

/-- The check of the result binds nothing. -/
theorem expectAll_resultCheck {last : Nat}
    (position : (m.expectAll resultCheck).position? = some last) :
    m.expectAll resultCheck = ⟨m.body, .on last, m.bindings⟩ := by
  have checked := Matcher.expectAll_eq_on_of_position? position
  obtain ⟨_, _, _, -, met⟩ := (Matcher.expectAll_eq_on_iff (by simp [resultCheck])).1 checked
  rwa [← (meetAll?_resultCheck.1 met).2] at checked

/-- The fault is matched at its throw. -/
theorem position?_resumeFault_iff {body : Body} {start faultEnd : Nat} :
    (((Matcher.start body).moveTo start).expectAll resumeFault).position? = some faultEnd ↔
      ∃ fault throw after, body.instructionsFrom (start + 1) = fault ++ (throw, faultEnd) :: after ∧
        IsResumeFault (fault.map Prod.fst ++ [throw]) := by
  simp only [Matcher.position?_expectAll_eq_some_iff (show resumeFault ≠ [] by simp [resumeFault]),
    meetAll?_resumeFault, Matcher.ahead_moveTo]
  constructor
  · intro h
    rcases h with ⟨fault, throw, after, _, ahead, isFault, -⟩
    exact ⟨fault, throw, after, ahead, isFault⟩
  · intro h
    rcases h with ⟨fault, throw, after, ahead, isFault⟩
    exact ⟨fault, throw, after, _, ahead, isFault, rfl⟩

/-- The ranges of a state machine, with the places that the recognizer takes them from. -/
theorem stateMachine?_eq_some_iff {body : Body} {ranges : List IgnoreRange} :
    stateMachine? body = some ranges ↔
      ∃ slot this cases otherwise dispatch switchNode switch check pop checkedEnd rest suspensions
          start fault throw faultEnd after,
        body.instructionsFrom 0 =
          dispatch ++ (switchNode, switch) :: (check ++ (pop, checkedEnd) :: rest) ∧
        IsDispatch slot cases otherwise (dispatch.map Prod.fst ++ [switchNode]) ∧
        IsResultCheck (check.map Prod.fst ++ [pop]) ∧
        suspensionRanges? (dispatchedAt body slot this checkedEnd) cases.tail checkedEnd =
          some suspensions ∧
        body.labelIndex? otherwise = some start ∧
        body.instructionsFrom (start + 1) = fault ++ (throw, faultEnd) :: after ∧
        IsResumeFault (fault.map Prod.fst ++ [throw]) ∧
        ranges = ⟨start, faultEnd⟩ :: ⟨switch, checkedEnd⟩ :: suspensions := by
  constructor
  · intro h
    obtain ⟨switch, position, h⟩ := Option.bind_eq_some_iff.1 h
    obtain ⟨node, there, h⟩ := Option.bind_eq_some_iff.1 h
    dsimp only at h
    split at h
    · next min max cases otherwise =>
      obtain ⟨checkedEnd, checked, h⟩ := Option.bind_eq_some_iff.1 h
      obtain ⟨suspensions, suspended, h⟩ := Option.bind_eq_some_iff.1 h
      obtain ⟨start, placed, h⟩ := Option.bind_eq_some_iff.1 h
      obtain ⟨faultEnd, thrown, h⟩ := Option.bind_eq_some_iff.1 h
      obtain ⟨slot, this, dispatched⟩ := position?_prologue_iff.1 position
      obtain ⟨dispatch, behind, ahead, isDispatch⟩ :=
        exists_eq_dispatchedAt_iff.1 ⟨⟨this, dispatched⟩, there⟩
      obtain ⟨check, pop, rest, ahead', isCheck⟩ := position?_resultCheck_iff.1 checked
      obtain ⟨fault, throw, after, ahead'', isFault⟩ := position?_resumeFault_iff.1 thrown
      rw [expectAll_resultCheck checked, dispatched] at suspended
      rw [dispatched] at ahead'
      have split : behind = check ++ (pop, checkedEnd) :: rest :=
        (Body.eq_instructionsFrom_of_append dispatch ahead).trans ahead'
      exact ⟨slot, this, cases, otherwise, dispatch, _, switch, check, pop, checkedEnd, rest,
        suspensions, start, fault, throw, faultEnd, after, split ▸ ahead, isDispatch, isCheck,
        suspended, placed, ahead'', isFault, (Option.some.inj h).symm⟩
    · simp at h
  · intro given
    rcases given with ⟨slot, this, cases, otherwise, dispatch, switchNode, switch, check, pop,
      checkedEnd, rest, suspensions, start, fault, throw, faultEnd, after, ahead, isDispatch,
      isCheck, suspended, placed, ahead', isFault, rfl⟩
    obtain ⟨min, max, rfl⟩ := isDispatch.exists_eq_tableSwitch
    obtain ⟨⟨self, dispatched⟩, there⟩ :=
      exists_eq_dispatchedAt_iff.2 ⟨dispatch, _, ahead, isDispatch⟩
    have position := position?_prologue_iff.2 ⟨slot, self, dispatched⟩
    have behind : (dispatchedAt body slot self switch).ahead = check ++ (pop, checkedEnd) :: rest :=
      (Body.eq_instructionsFrom_of_append dispatch ahead).symm
    have checked := position?_resultCheck_iff.2 ⟨check, pop, rest, behind, isCheck⟩
    have suspended' : suspensionRanges? ((dispatchedAt body slot self switch).expectAll resultCheck)
        cases.tail checkedEnd = some suspensions := by
      rw [expectAll_resultCheck checked, ← suspended]
      apply suspensionRanges?_congr _ _ slot <;> rfl
    have thrown := position?_resumeFault_iff.2 ⟨fault, throw, after, ahead', isFault⟩
    rw [← dispatched] at checked suspended'
    simp [stateMachine?, position, there, checked, suspended', placed, thrown]

/-- A body is recognized exactly if it is a state machine. -/
theorem isSome_stateMachine?_iff (body : Body) :
    (stateMachine? body).isSome ↔ IsStateMachine body := by
  rw [Option.isSome_iff_exists]
  constructor
  · intro given
    rcases given with ⟨ranges, h⟩
    obtain ⟨slot, this, cases, otherwise, dispatch, switchNode, switch, check, pop, checkedEnd,
      rest, suspensions, start, fault, throw, faultEnd, after, ahead, isDispatch, isCheck,
      suspended, placed, ahead', isFault, -⟩ := stateMachine?_eq_some_iff.1 h
    refine ⟨slot, cases, otherwise, dispatch ++ [(switchNode, switch)], check, pop, checkedEnd,
      rest, by simpa using ahead, by simpa using isDispatch, isCheck, ?_, start,
      fault ++ [(throw, faultEnd)], after, placed, by simpa using ahead', by simpa using isFault⟩
    exact (isSome_suspensionRanges?_iff rfl).1 (Option.isSome_iff_exists.2 ⟨suspensions, suspended⟩)
  · intro given
    rcases given with ⟨slot, cases, otherwise, dispatch, check, pop, checkedEnd, rest, ahead,
      isDispatch, isCheck, points, start, fault, after, placed, ahead', isFault⟩
    obtain ⟨dispatch, ⟨switchNode, switch⟩, rfl⟩ : ∃ front last, dispatch = front ++ [last] := by
      obtain ⟨descriptor, this, field, min, max, split, -⟩ := isDispatch
      rcases List.eq_nil_or_concat dispatch with rfl | ⟨front, last, rfl⟩
      · simp at split
      · exact ⟨front, last, by simp⟩
    obtain ⟨fault, ⟨throw, faultEnd⟩, rfl⟩ : ∃ front last, fault = front ++ [last] := by
      obtain ⟨dup, throw, split, -⟩ := isFault
      rcases List.eq_nil_or_concat fault with rfl | ⟨front, last, rfl⟩
      · simp at split
      · exact ⟨front, last, by simp⟩
    obtain ⟨suspensions, suspended⟩ := Option.isSome_iff_exists.1
      ((isSome_suspensionRanges?_iff (m := dispatchedAt body slot slot checkedEnd) rfl).2 points)
    exact ⟨_, stateMachine?_eq_some_iff.2
      ⟨slot, slot, cases, otherwise, dispatch, switchNode, switch,
      check, pop, checkedEnd, rest, suspensions, start, fault, throw, faultEnd, after,
      by simpa using ahead, by simpa using isDispatch, isCheck, suspended, placed,
      by simpa using ahead', by simpa using isFault, rfl⟩⟩

end BranchSieve.Coroutine
