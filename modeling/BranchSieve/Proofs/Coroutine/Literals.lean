import BranchSieve.Proofs.Bytecode.Replacement
import BranchSieve.Proofs.Coroutine.Shape
import Mathlib.Data.List.DropRight

/-!
# The literals of a state machine

A state machine is recognized by literals: the call that fetches the marker, the type that its
checks of the result test for, the slot of the marker, and what its fault creates and says. None of
them can be changed. The scan could look for the changed part elsewhere in the body, but each part
is pinned: the fetch and the first check by their number, a comparison by the place where its case
resumes, the check behind it by the place where the comparison goes on, and the fault by the place
of the default. None of these places moves when a literal changes.
-/

namespace BranchSieve.Coroutine

variable {body : Body} {slot slot' : UInt16} {cases cases' : List Label}
  {otherwise otherwise' resumption : Label} {nodes : List Node}

/-! ## What the parts fix -/

theorem IsDispatch.fetch_eq {owner name descriptor : String}
    (h : IsDispatch slot cases otherwise (.method .invokestatic owner name descriptor :: nodes)) :
    owner = "kotlin/coroutines/intrinsics/IntrinsicsKt" ∧ name = "getCOROUTINE_SUSPENDED" := by
  obtain ⟨_, _, _, _, _, split, -⟩ := h
  have first := (List.cons.inj split).1
  simp only [Insn.method.injEq, true_and] at first
  exact ⟨first.1, first.2.1⟩

/-- Nothing is created, loaded as a constant or constructed by a dispatch. -/
theorem IsDispatch.opcode?_notMem (h : IsDispatch slot cases otherwise nodes) :
    ∀ node ∈ nodes, node.opcode? ∉ [some .new, some .ldc, some .invokespecial] := by
  obtain ⟨_, _, field, _, _, rfl, isField⟩ := h
  simp only [List.mem_cons, List.not_mem_nil, or_false, forall_eq_or_imp, forall_eq, isField]
  simp [Insn.opcode?]

theorem IsResultCheck.type_eq (h : IsResultCheck nodes) {op : Opcode} {type : String}
    (isTest : op = .instanceof ∨ op = .checkcast) (mem : .type op type ∈ nodes) :
    type = "kotlin/Result$Failure" := by
  obtain ⟨load, dup, branch, field, throw, pop, rfl, isLoad, isDup, isBranch, isField, isThrow,
    isPop⟩ := h
  -- Only the two tests have one of these opcodes.
  have other : ∀ {node : Node} {op' : Opcode}, node.opcode? = some op' →
      op' ≠ .instanceof → op' ≠ .checkcast → Insn.type op type ≠ node := by
    rintro _ op' is notFirst notSecond rfl
    obtain rfl := Option.some.inj is
    exact isTest.elim notFirst notSecond
  simpa [other isLoad, other isDup, other isBranch, other isField, other isThrow, other isPop,
    ← or_and_right, isTest] using mem

/-- What a fault creates, says and calls, beside the duplication and the throw. -/
theorem IsResumeFault.eq_of_mem (h : IsResumeFault nodes) {node : Node} (mem : node ∈ nodes)
    (literal : node.opcode? ∉ [some .dup, some .athrow]) :
    node = .type .new "java/lang/IllegalStateException" ∨
      node = .ldc (.string "call to 'resume' before 'invoke' with coroutine") ∨
      node = .method .invokespecial "java/lang/IllegalStateException" "<init>"
        "(Ljava/lang/String;)V" := by
  obtain ⟨dup, throw, rfl, isDup, isThrow⟩ := h
  have notDup : node ≠ dup := by rintro rfl; simp [isDup] at literal
  have notThrow : node ≠ throw := by rintro rfl; simp [isThrow] at literal
  simpa [notDup, notThrow] using mem

theorem IsResumeFault.type_eq (h : IsResumeFault nodes) {type : String}
    (mem : .type .new type ∈ nodes) : type = "java/lang/IllegalStateException" := by
  simpa using h.eq_of_mem mem (by simp [Insn.opcode?])

theorem IsResumeFault.text_eq (h : IsResumeFault nodes) {text : String}
    (mem : .ldc (.string text) ∈ nodes) :
    text = "call to 'resume' before 'invoke' with coroutine" := by
  simpa using h.eq_of_mem mem (by simp [Insn.opcode?])

theorem IsResumeFault.method_eq (h : IsResumeFault nodes) {owner name descriptor : String}
    (mem : .method .invokespecial owner name descriptor ∈ nodes) :
    owner = "java/lang/IllegalStateException" ∧ name = "<init>" ∧
      descriptor = "(Ljava/lang/String;)V" := by
  simpa using h.eq_of_mem mem (by simp [Insn.opcode?])

/-- The first and the third instruction of a comparison load the marker. -/
theorem ComparesAt.exists_load {index continuation number : Nat}
    (h : ComparesAt body slot resumption index continuation) (isLoad : number = 0 ∨ number = 2) :
    ∃ place, (body.instructionsFrom (index + 1))[number]? = some (.var .aload slot, place) := by
  obtain ⟨load, _, load', _, _, _, _, _, ahead, -⟩ := comparesAt_iff.1 h
  rcases isLoad with rfl | rfl
  · exact ⟨load, by simp [ahead]⟩
  · exact ⟨load', by simp [ahead]⟩

theorem mem_instructionsFrom_of_mem_rtake {last count : Nat} {instruction : Node × Nat}
    (mem : instruction ∈ (body.instructionsBetween 0 last).rtake count) :
    instruction ∈ body.instructionsFrom 0 := by
  rw [Body.instructionsFrom_eq_append body (Nat.zero_le last)]
  exact List.mem_append_left _ (List.mem_of_mem_drop mem)

/-- The eight instructions in front of the reload are a check, and they stand behind the index. -/
theorem ReloadsBefore.rtake_eight {index continuation last : Nat}
    (h : ReloadsBefore body index continuation last) :
    IsResultCheck (((body.instructionsBetween 0 last).rtake 8).map Prod.fst) ∧
      ∀ instruction ∈ (body.instructionsBetween 0 last).rtake 8, index < instruction.2 := by
  obtain ⟨before, check, reload, next, rest, ahead, isCheck, -⟩ := h.exists_split
  have length := isCheck.length_eq
  rw [List.length_map] at length
  have whole : body.instructionsFrom 0 =
      (body.instructionsBetween 0 (index + 1) ++ before ++ check) ++
        (reload, last) :: (next, continuation) :: rest := by
    rw [Body.instructionsFrom_eq_append body (Nat.zero_le (index + 1)), ahead]
    simp
  have eight : (body.instructionsBetween 0 last).rtake 8 = check := by
    rw [Body.instructionsBetween_eq_of_append whole, List.rtake, List.length_append, length,
      Nat.add_sub_cancel, List.drop_left]
  rw [eight]
  refine ⟨isCheck, fun instruction mem => ?_⟩
  have there : instruction ∈ body.instructionsFrom (index + 1) := by simp [ahead, mem]
  exact (Body.mem_instructionsFrom.1 there).1

/-! ## The places of the parts after a replacement -/

section Replacement

variable {place : Nat} {node : Node} {fault fault' dispatch dispatch' : IgnoreRange}
  {suspensions suspensions' : List IgnoreRange}

/-- What a dispatch cannot hold stands behind the table. -/
theorem Assembly.lt_of_opcode?
    (assembly : Assembly body slot cases otherwise fault dispatch suspensions) {old : Node}
    {first : Nat} (mem : (old, place) ∈ body.instructionsFrom first)
    (foreign : old.opcode? ∈ [some .new, some .ldc, some .invokespecial]) :
    dispatch.first < place := by
  by_contra within
  have there : (old, place) ∈ (body.instructionsFrom 0).take 5 :=
    (Body.mem_take_iff assembly.table).2
      ⟨Body.mem_instructionsFrom.2 ⟨Nat.zero_le _, (Body.mem_instructionsFrom.1 mem).2⟩,
        Nat.not_lt.1 within⟩
  exact assembly.dispatched.opcode?_notMem old (List.mem_map_of_mem (f := Prod.fst) there) foreign

variable (carried : body.HasOpcode place) (opcode : node.isMarker = false)
  (assembly : Assembly body slot cases otherwise fault dispatch suspensions)
  (assembly' : Assembly (body.replace place node) slot' cases' otherwise' fault' dispatch'
    suspensions')

include carried opcode assembly assembly'

theorem Assembly.dispatch_first_eq : dispatch'.first = dispatch.first := by
  have table := assembly'.table
  rw [Body.placeFrom?_replace carried opcode, assembly.table] at table
  exact (Option.some.inj table).symm

/-- Behind the table, a replacement leaves the dispatch as it was. -/
theorem Assembly.table_eq (behind : dispatch.first < place) :
    slot = slot' ∧ cases = cases' ∧ otherwise = otherwise' := by
  have dispatched := assembly'.dispatched
  rw [Body.nodesFrom_replace_of_lt carried opcode assembly.table behind] at dispatched
  exact assembly.dispatched.unique dispatched

/-- The fault stands where it stood. -/
theorem Assembly.fault_first_eq (behind : dispatch.first < place) : fault'.first = fault.first := by
  obtain ⟨-, -, rfl⟩ := assembly.table_eq carried opcode assembly' behind
  have placed := assembly'.placed
  rw [Body.labelIndex?_replace carried opcode, assembly.placed] at placed
  exact (Option.some.inj placed).symm

/-- A node of the fault gives way to one of the fault. -/
theorem Assembly.mem_fault_replace {old : Node}
    (mem : (old, place) ∈ (body.instructionsFrom (fault.first + 1)).take 5)
    (foreign : old.opcode? ∈ [some .new, some .ldc, some .invokespecial]) :
    node ∈ (body.replace place node).nodesFrom (fault'.first + 1) 5 := by
  have behind := assembly.lt_of_opcode? (List.mem_of_mem_take mem) foreign
  rw [assembly.fault_first_eq carried opcode assembly' behind]
  exact Body.mem_nodesFrom_replace carried opcode mem

/-- Behind the table, a replacement leaves each suspension point with its case. -/
theorem Assembly.exists_suspendsOver_replace (behind : dispatch.first < place)
    {range : IgnoreRange} (mem : range ∈ suspensions) :
    ∃ resumption range', SuspendsOver body slot resumption range ∧
      SuspendsOver (body.replace place node) slot resumption range' := by
  obtain ⟨rfl, rfl, -⟩ := assembly.table_eq carried opcode assembly' behind
  obtain ⟨resumption, known, spans⟩ :=
    exists_mem_left_of_forall₂ assembly.scans.suspendsOver range mem
  obtain ⟨range', -, spans'⟩ :=
    exists_mem_left_of_forall₂ assembly'.scans.suspendsOver.flip resumption known
  exact ⟨resumption, range', spans, spans'⟩

end Replacement

section Replacement

variable {place index index' continuation continuation' last last' : Nat} {node : Node}
  (carried : body.HasOpcode place) (opcode : node.isMarker = false)

include carried opcode

/-- A comparison for the same case is seen after a replacement where it was seen before. -/
theorem ComparesAt.instructionsFrom_replace
    (h : ComparesAt body slot resumption index continuation)
    (h' : ComparesAt (body.replace place node) slot' resumption index' continuation') :
    (body.replace place node).instructionsFrom (index' + 1) =
      (body.replace place node).instructionsFrom (index + 1) := by
  obtain ⟨_, _, _, _, _, ⟨next, resumed⟩, rest, _, ahead, -, resumes, -⟩ := comparesAt_iff.1 h
  obtain ⟨_, _, _, _, _, ⟨next', resumed'⟩, rest', _, ahead', -, resumes', -⟩ := comparesAt_iff.1 h'
  rw [Body.labelTarget?_replace carried opcode, resumes] at resumes'
  obtain rfl : resumed = resumed' := Option.some.inj resumes'
  have exchanged := Body.instructionsFrom_replace carried opcode (index + 1)
  rw [ahead] at exchanged
  obtain ⟨node', there⟩ : ∃ node', Body.exchange place node (next, resumed) = (node', resumed) :=
    ⟨_, Prod.ext rfl (Body.snd_exchange _ _ _)⟩
  simp only [List.map_cons, there] at exchanged
  exact Body.instructionsFrom_eq_of_same_place
    (show _ = [_, _, _, _] ++ (next', resumed) :: rest' from ahead')
    (show _ = [_, _, _, _] ++ (node', resumed) :: _ from exchanged) rfl

/-- If no jump is replaced, the comparison goes on where it went on. -/
theorem ComparesAt.continuation_eq_of_replace {old : Node} (there : body.get? place = some old)
    (noJump : ∀ target, old ≠ .jump .ifAcmpne target)
    (h : ComparesAt body slot resumption index continuation)
    (h' : ComparesAt (body.replace place node) slot' resumption index' continuation') :
    continuation' = continuation := by
  have moved := h.instructionsFrom_replace carried opcode h'
  obtain ⟨_, branch, _, _, _, _, _, target, ahead, -, -, leads⟩ := comparesAt_iff.1 h
  obtain ⟨_, _, _, _, _, _, _, target', ahead', -, -, leads'⟩ := comparesAt_iff.1 h'
  have jump : (.jump .ifAcmpne target, branch) ∈ body.instructionsFrom (index + 1) := by
    simp [ahead]
  have elsewhere : branch ≠ place := by
    rintro rfl
    exact noJump target (Option.some.inj (there.symm.trans (Body.mem_instructionsFrom.1 jump).2.1))
  have still : Body.exchange place node (.jump .ifAcmpne target, branch) =
      (.jump .ifAcmpne target, branch) := Body.exchange_of_ne elsewhere
  rw [Body.instructionsFrom_replace carried opcode (index + 1), ahead, ahead'] at moved
  simp only [List.map_cons, List.cons.injEq, still, Prod.mk.injEq, Insn.jump.injEq, true_and]
    at moved
  rw [Body.labelTarget?_replace carried opcode, moved.2.1.1, leads] at leads'
  exact (Option.some.inj leads').symm

/-- In front of the same continuation the reload stands where it stood. -/
theorem ReloadsBefore.last_eq_of_replace (h : ReloadsBefore body index continuation last)
    (h' : ReloadsBefore (body.replace place node) index' continuation last') : last' = last := by
  have next := h.nextOpcode?_last
  rw [← Body.nextOpcode?_replace carried opcode] at next
  obtain ⟨load, there, isLoad⟩ := h.exists_load
  have stands : body.HasOpcode last := ⟨load, there, isMarker_eq_false_of_opcode? isLoad⟩
  exact Body.eq_of_nextOpcode?_eq h'.nextOpcode?_last next h'.hasOpcode_last
    ((Body.hasOpcode_replace carried opcode).2 stands)

/-- A node of a check in front of the reload gives way to one of a check. -/
theorem ReloadsBefore.mem_rtake_replace {old : Node}
    (mem : (old, place) ∈ (body.instructionsBetween 0 last).rtake 8) :
    node ∈ (((body.replace place node).instructionsBetween 0 last).rtake 8).map Prod.fst := by
  rw [Body.instructionsBetween_replace carried opcode, List.rtake,
    List.length_map, ← List.map_drop]
  exact List.mem_map_of_mem (f := Prod.fst) (Body.mem_map_exchange mem)

end Replacement

/-! ## Changed literals -/

/-- An instruction of a state machine with the given ranges, by its place, after a literal that the
    skeleton fixes has been changed to another value. -/
inductive AltersSkeleton (body : Body) (fault dispatch : IgnoreRange)
    (suspensions : List IgnoreRange) (place : Nat) : Node → Prop where
  /-- The owner or the name of the call that fetches the marker. -/
  | fetch {owner owner' name name' descriptor : String}
      (there : (body.instructionsFrom 0)[0]? =
        some (.method .invokestatic owner name descriptor, place))
      (ne : owner' ≠ owner ∨ name' ≠ name) :
      AltersSkeleton body fault dispatch suspensions place
        (.method .invokestatic owner' name' descriptor)
  /-- A type that the first check of the result tests for. -/
  | firstCheck {op : Opcode} {type type' : String}
      (isTest : op = .instanceof ∨ op = .checkcast)
      (there : (.type op type, place) ∈ (body.instructionsFrom (dispatch.first + 1)).take 8)
      (ne : type' ≠ type) :
      AltersSkeleton body fault dispatch suspensions place (.type op type')
  /-- A type that the check in front of the end of a suspension point tests for. -/
  | resumedCheck {range : IgnoreRange} {op : Opcode} {type type' : String}
      (mem : range ∈ suspensions) (isTest : op = .instanceof ∨ op = .checkcast)
      (there : (.type op type, place) ∈ (body.instructionsBetween 0 range.last).rtake 8)
      (ne : type' ≠ type) :
      AltersSkeleton body fault dispatch suspensions place (.type op type')
  /-- The slot that the first or the third instruction of a comparison loads. -/
  | comparison {number : Nat} {range : IgnoreRange} {slot slot' : UInt16}
      (mem : range ∈ suspensions) (isLoad : number = 0 ∨ number = 2)
      (there : (body.instructionsFrom (range.first + 1))[number]? = some (.var .aload slot, place))
      (ne : slot' ≠ slot) :
      AltersSkeleton body fault dispatch suspensions place (.var .aload slot')
  /-- The type that the fault creates. -/
  | creation {type type' : String}
      (there : (.type .new type, place) ∈ (body.instructionsFrom (fault.first + 1)).take 5)
      (ne : type' ≠ type) :
      AltersSkeleton body fault dispatch suspensions place (.type .new type')
  /-- The text of the fault. -/
  | message {text text' : String}
      (there : (.ldc (.string text), place) ∈ (body.instructionsFrom (fault.first + 1)).take 5)
      (ne : text' ≠ text) :
      AltersSkeleton body fault dispatch suspensions place (.ldc (.string text'))
  /-- The owner, the name or the descriptor of the constructor that the fault calls. -/
  | construction {owner owner' name name' descriptor descriptor' : String}
      (there : (.method .invokespecial owner name descriptor, place) ∈
        (body.instructionsFrom (fault.first + 1)).take 5)
      (ne : owner' ≠ owner ∨ name' ≠ name ∨ descriptor' ≠ descriptor) :
      AltersSkeleton body fault dispatch suspensions place
        (.method .invokespecial owner' name' descriptor')

variable {place : Nat} {node : Node} {fault dispatch : IgnoreRange} {suspensions : List IgnoreRange}

/-- A literal belongs to an instruction, and the changed one is an instruction, too. -/
theorem AltersSkeleton.hasOpcode
    (alters : AltersSkeleton body fault dispatch suspensions place node) :
    body.HasOpcode place ∧ node.isMarker = false := by
  have carried : ∀ {old : Node} {first : Nat}, (old, place) ∈ body.instructionsFrom first →
      body.HasOpcode place :=
    fun mem => ⟨_, (Body.mem_instructionsFrom.1 mem).2⟩
  cases alters with
  | fetch there _ => exact ⟨carried (List.mem_of_getElem? there), rfl⟩
  | firstCheck _ there _ => exact ⟨carried (List.mem_of_mem_take there), rfl⟩
  | resumedCheck _ _ there _ => exact ⟨carried (mem_instructionsFrom_of_mem_rtake there), rfl⟩
  | comparison _ _ there _ => exact ⟨carried (List.mem_of_getElem? there), rfl⟩
  | creation there _ => exact ⟨carried (List.mem_of_mem_take there), rfl⟩
  | message there _ => exact ⟨carried (List.mem_of_mem_take there), rfl⟩
  | construction there _ => exact ⟨carried (List.mem_of_mem_take there), rfl⟩

/-- A state machine with a changed literal is none. -/
theorem stateMachine?_replace_eq_none
    (recognized : stateMachine? body = some (fault :: dispatch :: suspensions))
    (alters : AltersSkeleton body fault dispatch suspensions place node) :
    stateMachine? (body.replace place node) = none := by
  obtain ⟨carried, opcode⟩ := alters.hasOpcode
  rw [Option.eq_none_iff_forall_ne_some]
  intro ranges recognized'
  obtain ⟨slot, cases, otherwise, _, _, _, split, assembly⟩ :=
    stateMachine?_eq_some_iff_assembly.1 recognized
  obtain ⟨slot', cases', otherwise', fault', dispatch', suspensions', -, assembly'⟩ :=
    stateMachine?_eq_some_iff_assembly.1 recognized'
  simp only [List.cons.injEq] at split
  obtain ⟨rfl, rfl, rfl⟩ := split
  cases alters with
  | fetch there ne =>
    obtain ⟨rest, ahead⟩ := List.head?_eq_some_iff.1 (List.head?_eq_getElem?.trans there)
    have former := assembly.dispatched
    have new := assembly'.dispatched
    rw [Body.nodesFrom, ahead] at former
    rw [Body.nodesFrom, Body.instructionsFrom_replace carried opcode, ahead, List.map_cons,
      Body.exchange_self] at new
    obtain ⟨rfl, rfl⟩ := former.fetch_eq
    obtain ⟨rfl, rfl⟩ := new.fetch_eq
    simp at ne
  | firstCheck isTest there ne =>
    have checked := assembly'.checked
    rw [assembly.dispatch_first_eq carried opcode assembly'] at checked
    have former := assembly.checked.type_eq isTest (List.mem_map_of_mem (f := Prod.fst) there)
    have new := checked.type_eq isTest (Body.mem_nodesFrom_replace carried opcode there)
    exact ne (new.trans former.symm)
  | @resumedCheck range op type _ mem isTest there ne =>
    have found := (Body.mem_instructionsFrom.1 (mem_instructionsFrom_of_mem_rtake there)).2.1
    have behind : dispatch.first < place := by
      obtain ⟨_, -, _, -, reloads⟩ :=
        exists_mem_left_of_forall₂ assembly.scans.suspendsOver range mem
      exact Nat.lt_trans (assembly.first_lt mem) (reloads.rtake_eight.2 _ there)
    obtain ⟨resumption, range', ⟨continuation, compares, reloads⟩, continuation', compares',
      reloads'⟩ := assembly.exists_suspendsOver_replace carried opcode assembly' behind mem
    obtain rfl := compares.continuation_eq_of_replace carried opcode found (by simp) compares'
    have former := reloads.rtake_eight.1.type_eq isTest (List.mem_map_of_mem (f := Prod.fst) there)
    have checked := reloads'.rtake_eight.1
    rw [reloads.last_eq_of_replace carried opcode reloads'] at checked
    have new := checked.type_eq isTest (ReloadsBefore.mem_rtake_replace carried opcode there)
    exact ne (new.trans former.symm)
  | @comparison number range old new mem isLoad there ne =>
    have behind : dispatch.first < place :=
      Nat.lt_trans (assembly.first_lt mem)
        (Body.mem_instructionsFrom.1 (List.mem_of_getElem? there)).1
    obtain ⟨resumption, range', ⟨continuation, compares, -⟩, continuation', compares', -⟩ :=
      assembly.exists_suspendsOver_replace carried opcode assembly' behind mem
    obtain ⟨_, loads⟩ := compares.exists_load isLoad
    obtain ⟨_, loads'⟩ := compares'.exists_load isLoad
    rw [compares.instructionsFrom_replace carried opcode compares',
      Body.instructionsFrom_replace carried opcode, List.getElem?_map, there, Option.map_some,
      Body.exchange_self] at loads'
    rw [there] at loads
    simp only [Option.some.injEq, Prod.mk.injEq, Insn.var.injEq, true_and] at loads loads'
    exact ne (loads'.1.trans loads.1.symm)
  | creation there ne =>
    have former := assembly.faulted.type_eq (List.mem_map_of_mem (f := Prod.fst) there)
    have new := assembly'.faulted.type_eq
      (assembly.mem_fault_replace carried opcode assembly' there (by simp [Insn.opcode?]))
    exact ne (new.trans former.symm)
  | message there ne =>
    have former := assembly.faulted.text_eq (List.mem_map_of_mem (f := Prod.fst) there)
    have new := assembly'.faulted.text_eq
      (assembly.mem_fault_replace carried opcode assembly' there (by simp [Insn.opcode?]))
    exact ne (new.trans former.symm)
  | construction there ne =>
    obtain ⟨rfl, rfl, rfl⟩ := assembly.faulted.method_eq (List.mem_map_of_mem (f := Prod.fst) there)
    obtain ⟨rfl, rfl, rfl⟩ := assembly'.faulted.method_eq
      (assembly.mem_fault_replace carried opcode assembly' there (by simp [Insn.opcode?]))
    simp at ne

/-- A check in front of the end of a suspension point is changed, and the code in front of that
    point holds a copy of it. -/
theorem stateMachine?_decoyed_replace :
    stateMachine? Layout.decoyed.body = some [⟨68, 73⟩, ⟨5, 15⟩, ⟨30, 45⟩, ⟨49, 65⟩] ∧
      AltersSkeleton Layout.decoyed.body ⟨68, 73⟩ ⟨5, 15⟩ [⟨30, 45⟩, ⟨49, 65⟩] 38
        (.type .instanceof "kotlin/Result") ∧
      stateMachine?
        (Layout.decoyed.body.replace 38 (.type .instanceof "kotlin/Result")) = none := by
  have recognized : stateMachine? Layout.decoyed.body =
      some [⟨68, 73⟩, ⟨5, 15⟩, ⟨30, 45⟩, ⟨49, 65⟩] := by decide +kernel
  have tested : (.type .instanceof "kotlin/Result$Failure", 38) ∈
      (Layout.decoyed.body.instructionsBetween 0 45).rtake 8 := by decide +kernel
  have alters : AltersSkeleton Layout.decoyed.body ⟨68, 73⟩ ⟨5, 15⟩ [⟨30, 45⟩, ⟨49, 65⟩] 38
      (.type .instanceof "kotlin/Result") :=
    .resumedCheck List.mem_cons_self (.inl rfl) tested (by decide)
  exact ⟨recognized, alters, stateMachine?_replace_eq_none recognized alters⟩

end BranchSieve.Coroutine
