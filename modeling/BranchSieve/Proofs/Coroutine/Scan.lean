import BranchSieve.Proofs.Coroutine.Recognition

/-!
# The scan for suspension points

The scan takes the suspension points one after the other. For each case it goes from the index
behind the one that it took before to the first index from which the comparison of that case is
seen. Such an index carries an opcode, the instruction in front of the comparison, unless the scan
starts there: it may start on a marker in front of a comparison and see it at once.
-/

namespace BranchSieve.Coroutine

variable {body : Body} {slot : UInt16}

/-- The comparison for a case is seen from `index` and from no index between `first` and it. -/
structure FirstSeen (body : Body) (slot : UInt16) (resumption : Label)
    (first index continuation : Nat) : Prop where
  ge : first ≤ index
  seen : ComparesAt body slot resumption index continuation
  unseen : ∀ earlier other, first ≤ earlier → earlier < index →
    ¬ ComparesAt body slot resumption earlier other

/-- What the scan finds for the cases of a table from an index on, case by case. -/
inductive Scans (body : Body) (slot : UInt16) : List Label → Nat → List IgnoreRange → Prop where
  | nil {first : Nat} : Scans body slot [] first []
  | cons {resumption : Label} {resumptions : List Label} {first continuation : Nat}
      {range : IgnoreRange} {ranges : List IgnoreRange}
      (found : FirstSeen body slot resumption first range.first continuation)
      (resumed : ReloadsBefore body range.first continuation range.last)
      (rest : Scans body slot resumptions (range.first + 1) ranges) :
      Scans body slot (resumption :: resumptions) first (range :: ranges)

theorem suspensionRanges?_eq_some_iff {m : Matcher}
    (bound : m.bindings.lookup suspendedSlot = some slot) {resumptions : List Label} {first : Nat}
    {ranges : List IgnoreRange} :
    suspensionRanges? m resumptions first = some ranges ↔
      Scans m.body slot resumptions first ranges := by
  induction resumptions generalizing first ranges with
  | nil =>
    constructor
    · intro h
      obtain rfl := Option.some.inj h
      exact .nil
    · rintro ⟨⟩
      rfl
  | cons resumption resumptions ih =>
    constructor
    · intro h
      obtain ⟨⟨index, continuation⟩, here, h⟩ := Option.bind_eq_some_iff.1 h
      obtain ⟨last, checked, h⟩ := Option.bind_eq_some_iff.1 h
      obtain ⟨others, rest, h⟩ := Option.bind_eq_some_iff.1 h
      obtain rfl := Option.some.inj h
      obtain ⟨ge, seen, unseen⟩ := (findSuspension?_eq_some_iff bound).1 here
      exact .cons ⟨ge, seen, unseen⟩ (findResumedEnd?_eq_some_iff.1 checked) (ih.1 rest)
    · intro scans
      cases scans with
      | @cons _ _ _ continuation range ranges found resumed rest =>
        have here : findSuspension? m resumption first = some (range.first, continuation) :=
          (findSuspension?_eq_some_iff bound).2 ⟨found.ge, found.seen, found.unseen⟩
        simp [suspensionRanges?, here, findResumedEnd?_eq_some_iff.2 resumed, ih.2 rest]

theorem Scans.length_eq {resumptions : List Label} {first : Nat} {ranges : List IgnoreRange}
    (scans : Scans body slot resumptions first ranges) : ranges.length = resumptions.length := by
  induction scans with
  | nil => rfl
  | cons _ _ _ ih => rw [List.length_cons, List.length_cons, ih]

variable {resumption : Label} {first index continuation : Nat}

/-- A comparison is seen from another index with the same instructions behind it. -/
theorem ComparesAt.of_instructionsFrom_eq {index' : Nat}
    (h : ComparesAt body slot resumption index continuation)
    (same : body.instructionsFrom (index' + 1) = body.instructionsFrom (index + 1)) :
    ComparesAt body slot resumption index' continuation := by
  obtain ⟨compared, next, rest, target, ahead, isComparison, resumes, leads⟩ := h
  exact ⟨compared, next, rest, target, same.trans ahead, isComparison, resumes, leads⟩

/-- What is seen from an index where the scan does not start is not seen from the index in front. -/
theorem FirstSeen.eq_or_hasOpcode
    (found : FirstSeen body slot resumption first index continuation) :
    index = first ∨ body.HasOpcode index := by
  by_contra neither
  obtain ⟨moved, marker⟩ := not_or.1 neither
  have gt : first < index := Nat.lt_of_le_of_ne found.ge (Ne.symm moved)
  have there : index - 1 + 1 = index := by omega
  refine found.unseen (index - 1) continuation (by omega) (by omega) ?_
  refine found.seen.of_instructionsFrom_eq ?_
  rw [there, Body.instructionsFrom_of_not_hasOpcode marker]

/-- If a comparison is seen from an index, one is seen from a first index. -/
theorem exists_firstSeen (ge : first ≤ index)
    (h : ComparesAt body slot resumption index continuation) :
    ∃ found, found ≤ index ∧ FirstSeen body slot resumption first found continuation := by
  obtain ⟨found, le, here⟩ :=
    exists_findSuspension?_of_comparesAt (m := dispatchedAt body slot slot first) rfl ge h
  obtain ⟨ge', seen, unseen⟩ := (findSuspension?_eq_some_iff rfl).1 here
  exact ⟨found, le, ge', seen, unseen⟩

/-- The ranges of a state machine are that of the fault, that of the dispatch, which starts at the
    table, and what the scan finds behind it for the further cases. -/
theorem exists_scans_of_stateMachine? {ranges : List IgnoreRange}
    (recognized : stateMachine? body = some ranges) :
    ∃ slot fault dispatch suspensions min max cases otherwise,
      ranges = fault :: dispatch :: suspensions ∧
      body.get? dispatch.first = some (.tableSwitch min max cases otherwise) ∧
      body.HasOpcode dispatch.last ∧
      Scans body slot cases.tail dispatch.last suspensions := by
  obtain ⟨slot, this, cases, otherwise, front, switchNode, switch, check, pop, checkedEnd, rest,
    suspensions, start, _, _, faultEnd, _, ahead, isDispatch, isCheck, suspended, -, -, -, rfl⟩ :=
    stateMachine?_eq_some_iff.1 recognized
  obtain ⟨min, max, rfl⟩ := isDispatch.exists_eq_tableSwitch
  have table : (.tableSwitch min max cases otherwise, switch) ∈ body.instructionsFrom 0 := by
    simp [ahead]
  have checked : (pop, checkedEnd) ∈ body.instructionsFrom 0 := by simp [ahead]
  exact ⟨slot, ⟨start, faultEnd⟩, ⟨switch, checkedEnd⟩, suspensions, min, max, cases, otherwise,
    rfl, (Body.mem_instructionsFrom.1 table).2.1, ⟨pop, (Body.mem_instructionsFrom.1 checked).2⟩,
    (suspensionRanges?_eq_some_iff rfl).1 suspended⟩

/-- Two cases of the table lead behind the same comparison. A line number stands in front of that,
    so the scan for the second case starts at a marker from which the comparison is seen again. -/
def twins : Body := ⟨nodes.toArray⟩
where
  nodes : List Node :=
    [.method .invokestatic "kotlin/coroutines/intrinsics/IntrinsicsKt" "getCOROUTINE_SUSPENDED"
        "()Ljava/lang/Object;",
      .var .astore 3, .var .aload 0, .field .getfield "C" "label" "I",
      .tableSwitch 0 2 [⟨0⟩, ⟨1⟩, ⟨1⟩] ⟨3⟩, .label ⟨0⟩] ++ check ⟨4⟩ ++
    [.simple .dup, .line 5 ⟨0⟩, .var .aload 3, .jump .ifAcmpne ⟨2⟩, .var .aload 3, .simple .areturn,
      .label ⟨1⟩] ++ check ⟨5⟩ ++
    [.var .aload 1, .label ⟨2⟩, .simple .areturn, .label ⟨3⟩,
      .type .new "java/lang/IllegalStateException", .simple .dup,
      .ldc (.string "call to 'resume' before 'invoke' with coroutine"),
      .method .invokespecial "java/lang/IllegalStateException" "<init>" "(Ljava/lang/String;)V",
      .simple .athrow]
  check (passed : Label) : List Node :=
    [.var .aload 1, .simple .dup, .type .instanceof "kotlin/Result$Failure", .jump .ifeq passed,
      .type .checkcast "kotlin/Result$Failure",
      .field .getfield "kotlin/Result$Failure" "exception" "Ljava/lang/Throwable;",
      .simple .athrow, .label passed, .simple .pop]

end BranchSieve.Coroutine
