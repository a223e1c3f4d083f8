import BranchSieve.Proofs.Coroutine.Assembly

/-!
# The shape of the ranges

The ranges of a state machine are as many as the cases of its table and one for the default. Those
of the suspension points follow the dispatch in ascending order, though they may overlap, and each
holds the place where its case resumes and ends in front of its continuation. The range of the fault
starts at a label, which may stand anywhere, even within another range; still it is none of the
others, because it ends with a throw.
-/

namespace BranchSieve.Coroutine

variable {body : Body} {slot : UInt16} {resumption : Label} {index continuation last : Nat}

/-- No check of the result starts within a comparison. -/
theorem four_le_length_of_append {before rest rest' : List (Option Opcode)}
    (same : some .aload :: some .ifAcmpne :: some .aload :: some .areturn :: rest =
      before ++ some .aload :: some .dup :: rest') : 4 ≤ before.length := by
  match before, same with
  | [], same => simp at same
  | [_], same => simp at same
  | [_, _], same => simp at same
  | [_, _, _], same => simp at same
  | _ :: _ :: _ :: _ :: _, _ => simp

theorem IsResultCheck.exists_opcodes {nodes : List Node} (h : IsResultCheck nodes) :
    ∃ others, nodes.map Insn.opcode? = some .aload :: some .dup :: others := by
  obtain ⟨load, dup, _, _, _, _, rfl, isLoad, isDup, -⟩ := h
  exact ⟨_, by rw [List.map_cons, List.map_cons, isLoad, isDup]⟩

/-- The opcodes behind an index from which a comparison is seen. -/
theorem ComparesAt.exists_opcodes (h : ComparesAt body slot resumption index continuation) :
    ∃ others, ((body.instructionsFrom (index + 1)).map Prod.fst).map Insn.opcode? =
      some .aload :: some .ifAcmpne :: some .aload :: some .areturn :: others := by
  obtain ⟨_, _, _, back, _, _, _, _, ahead, isBack, -⟩ := comparesAt_iff.1 h
  simp only [ahead, List.map_cons, isBack]
  exact ⟨_, rfl⟩

/-- The case resumes at the fifth instruction behind an index from which its comparison is seen. -/
theorem ComparesAt.labelTarget?_eq (h : ComparesAt body slot resumption index continuation) :
    ∃ resumed, body.labelTarget? resumption = some resumed ∧
      body.placeFrom? (index + 1) 4 = some resumed := by
  obtain ⟨_, _, _, _, _, next, _, _, ahead, -, resumes, -⟩ := comparesAt_iff.1 h
  exact ⟨next.2, resumes, by simp [Body.placeFrom?, ahead]⟩

/-- The instructions behind an index, up to a continuation and from there on. -/
theorem ReloadsBefore.exists_split (h : ReloadsBefore body index continuation last) :
    ∃ before check reload next rest, body.instructionsFrom (index + 1) =
        before ++ check ++ (reload, last) :: (next, continuation) :: rest ∧
      IsResultCheck (check.map Prod.fst) ∧ reload.opcode? = some .aload := by
  have lt := h.lt
  obtain ⟨⟨next, there, opcode⟩, before, check, reload, split, isCheck, isLoad⟩ := h
  refine ⟨before, check, reload, next, body.instructionsFrom (continuation + 1), ?_, isCheck,
    isLoad⟩
  rw [Body.instructionsFrom_eq_append body lt, split, Body.instructionsFrom_eq_cons there opcode]
  simp

/-- The reload stands directly in front of the continuation. -/
theorem ReloadsBefore.nextOpcode?_last (h : ReloadsBefore body index continuation last) :
    body.nextOpcode? last = some continuation := by
  obtain ⟨before, check, reload, next, rest, ahead, -⟩ := h.exists_split
  have behind := Body.eq_instructionsFrom_of_append (before ++ check) ahead
  rw [Body.nextOpcode?_eq_head?, ← behind]
  rfl

theorem ReloadsBefore.exists_load (h : ReloadsBefore body index continuation last) :
    ∃ node, body.get? last = some node ∧ node.opcode? = some .aload := by
  obtain ⟨before, check, reload, next, rest, ahead, -, isLoad⟩ := h.exists_split
  have mem : (reload, last) ∈ body.instructionsFrom (index + 1) := by simp [ahead]
  exact ⟨reload, (Body.mem_instructionsFrom.1 mem).2.1, isLoad⟩

/-- The place where a case resumes lies between its comparison and the reload. -/
theorem ComparesAt.lt_resumed (compares : ComparesAt body slot resumption index continuation)
    (reloads : ReloadsBefore body index continuation last) {resumed : Nat}
    (leads : body.labelTarget? resumption = some resumed) : index < resumed ∧ resumed < last := by
  obtain ⟨_, leads', found⟩ := compares.labelTarget?_eq
  obtain rfl := Option.some.inj (leads.symm.trans leads')
  obtain ⟨before, check, reload, next, rest, split, isCheck, -⟩ := reloads.exists_split
  have length := isCheck.length_eq
  rw [List.length_map] at length
  -- The check starts at the place where the case resumes or behind it.
  have behind : 4 ≤ ((before.map Prod.fst).map Insn.opcode?).length := by
    obtain ⟨others, compared⟩ := compares.exists_opcodes
    obtain ⟨others', checked⟩ := isCheck.exists_opcodes
    rw [split, List.append_assoc] at compared
    simp only [List.map_append, checked] at compared
    exact four_le_length_of_append compared.symm
  rw [List.length_map, List.length_map] at behind
  have ends : body.placeFrom? (index + 1) (before.length + 8) = some last := by
    simp [Body.placeFrom?, split, ← length]
  exact ⟨Body.le_of_placeFrom? found, Body.lt_of_placeFrom? found ends (by omega)⟩

/-- The range of a suspension point holds the place where its case resumes. It ends at the
    instruction in front of the one at which its comparison goes on, and that lies outside. -/
def Encloses (body : Body) (resumption : Label) (range : IgnoreRange) : Prop :=
  ∃ resumed jump target continuation,
    body.labelTarget? resumption = some resumed ∧ range.first < resumed ∧ resumed < range.last ∧
    jumpBehind? body range.first = some jump ∧ body.get? jump = some (.jump .ifAcmpne target) ∧
    body.labelTarget? target = some continuation ∧ body.nextOpcode? range.last = some continuation ∧
    range.contains continuation = false

theorem SuspendsOver.encloses {range : IgnoreRange} (h : SuspendsOver body slot resumption range) :
    Encloses body resumption range := by
  obtain ⟨continuation, compares, reloads⟩ := h
  obtain ⟨load, branch, _, _, _, next, _, target, ahead, -, resumes, goes_on⟩ :=
    comparesAt_iff.1 compares
  have jump : (.jump .ifAcmpne target, branch) ∈ body.instructionsFrom (range.first + 1) := by
    simp [ahead]
  have within := compares.lt_resumed reloads resumes
  have follows := reloads.nextOpcode?_last
  have outside : range.last < continuation := by
    rw [Body.nextOpcode?_eq_placeFrom?] at follows
    exact Body.le_of_placeFrom? follows
  exact ⟨next.2, branch, target, continuation, resumes, within.1, within.2,
    by simp [jumpBehind?, ahead], (Body.mem_instructionsFrom.1 jump).2.1, goes_on, follows,
    by simp [IgnoreRange.contains, outside]⟩

theorem Encloses.first_lt_last {range : IgnoreRange} (h : Encloses body resumption range) :
    range.first < range.last := by
  obtain ⟨_, _, _, _, -, lower, upper, -⟩ := h
  exact Nat.lt_trans lower upper

/-- Where the ranges of a state machine with the given table are. -/
structure Shape (body : Body) (cases : List Label) (otherwise : Label)
    (fault dispatch : IgnoreRange) (suspensions : List IgnoreRange) : Prop where
  count : (fault :: dispatch :: suspensions).length = max 1 cases.length + 1
  faultStart : body.labelIndex? otherwise = some fault.first
  faultEnd : body.placeFrom? (fault.first + 1) 4 = some fault.last
  dispatchEnd : body.placeFrom? (dispatch.first + 1) 7 = some dispatch.last
  enclosed : List.Forall₂ (Encloses body) cases.tail suspensions
  behindDispatch : ∀ range ∈ suspensions, dispatch.last ≤ range.first
  ascending : (dispatch :: suspensions).Pairwise (·.first < ·.first)
  bounded : ∀ range ∈ fault :: dispatch :: suspensions,
    range.first < range.last ∧ range.last < body.size ∧ body.HasOpcode range.last
  nodup : (fault :: dispatch :: suspensions).Nodup

namespace Assembly

variable {cases : List Label} {otherwise : Label} {fault dispatch : IgnoreRange}
  {suspensions : List IgnoreRange}

/-- The last instruction of the fault is a throw. -/
theorem exists_throw (assembly : Assembly body slot cases otherwise fault dispatch suspensions) :
    ∃ node, body.get? fault.last = some node ∧ node.opcode? = some .athrow := by
  obtain ⟨front, throw, rest, ahead, nodes⟩ :=
    (Body.nodesFrom_and_placeFrom?_iff assembly.faulted.length_eq).1 ⟨rfl, assembly.faultEnd⟩
  obtain ⟨dup, last, split, -, isThrow⟩ := assembly.faulted
  obtain ⟨-, only⟩ := List.append_inj' (nodes.trans split : _ = [_, _, _, _] ++ [last]) rfl
  obtain ⟨rfl, -⟩ := List.cons.inj only
  have mem : (throw, fault.last) ∈ body.instructionsFrom (fault.first + 1) := by simp [ahead]
  exact ⟨throw, (Body.mem_instructionsFrom.1 mem).2.1, isThrow⟩

/-- The range of the fault is not that of the dispatch, which starts at an instruction. -/
theorem fault_ne_dispatch
    (assembly : Assembly body slot cases otherwise fault dispatch suspensions) :
    fault ≠ dispatch := by
  intro same
  obtain ⟨node, there, opcode⟩ := Body.hasOpcode_of_placeFrom? assembly.table
  have label := (Body.labelIndex?_eq_some_iff.1 assembly.placed).1
  rw [same, there] at label
  simp [Option.some.inj label, Insn.isMarker, Insn.opcode?] at opcode

/-- The range of the fault is not that of a suspension point, which ends with a load. -/
theorem fault_notMem (assembly : Assembly body slot cases otherwise fault dispatch suspensions) :
    fault ∉ suspensions := by
  intro mem
  obtain ⟨resumption, -, _, -, reloads⟩ :=
    exists_mem_left_of_forall₂ assembly.scans.suspendsOver fault mem
  obtain ⟨throw, there, isThrow⟩ := assembly.exists_throw
  obtain ⟨load, there', isLoad⟩ := reloads.exists_load
  rw [Option.some.inj (there.symm.trans there'), isLoad] at isThrow
  cases isThrow

theorem shape (assembly : Assembly body slot cases otherwise fault dispatch suspensions) :
    Shape body cases otherwise fault dispatch suspensions := by
  have enclosed : List.Forall₂ (Encloses body) cases.tail suspensions :=
    assembly.scans.suspendsOver.imp fun _ _ => SuspendsOver.encloses
  have length := assembly.scans.length_eq
  have ascending : (dispatch :: suspensions).Pairwise (·.first < ·.first) :=
    List.pairwise_cons.2 ⟨fun range => assembly.first_lt, assembly.scans.pairwise_first⟩
  refine ⟨?_, assembly.placed, assembly.faultEnd, assembly.checkedEnd, enclosed,
    assembly.scans.le_first, ascending, ?_, ?_⟩
  · rw [List.length_tail] at length
    simp only [List.length_cons, length]
    omega
  · have within : ∀ range ∈ suspensions,
        range.first < range.last ∧ range.last < body.size ∧ body.HasOpcode range.last := by
      intro range mem
      obtain ⟨_, -, spans⟩ := exists_mem_left_of_forall₂ enclosed range mem
      have opcode := assembly.scans.hasOpcode_last range mem
      exact ⟨spans.first_lt_last, opcode.lt_size, opcode⟩
    have faulted := Body.hasOpcode_of_placeFrom? assembly.faultEnd
    have checked := Body.hasOpcode_of_placeFrom? assembly.checkedEnd
    exact List.forall_mem_cons.2
      ⟨⟨Body.le_of_placeFrom? assembly.faultEnd, faulted.lt_size, faulted⟩,
        List.forall_mem_cons.2
          ⟨⟨Body.le_of_placeFrom? assembly.checkedEnd, checked.lt_size, checked⟩, within⟩⟩
  · have others : (dispatch :: suspensions).Nodup :=
      List.nodup_iff_pairwise_ne.2 (ascending.imp fun lt same => by simp [same] at lt)
    refine List.nodup_cons.2 ⟨fun mem => ?_, others⟩
    rcases List.mem_cons.1 mem with same | mem
    · exact assembly.fault_ne_dispatch same
    · exact assembly.fault_notMem mem

end Assembly

/-- The ranges of a state machine are those of its fault, its dispatch and its suspension points, in
    the shape that the table asks for. The table is the fifth instruction. -/
theorem exists_shape_of_stateMachine? {ranges : List IgnoreRange}
    (recognized : stateMachine? body = some ranges) :
    ∃ fault dispatch suspensions min max cases otherwise,
      ranges = fault :: dispatch :: suspensions ∧
      (body.instructionsFrom 0)[4]? = some (.tableSwitch min max cases otherwise, dispatch.first) ∧
      Shape body cases otherwise fault dispatch suspensions := by
  obtain ⟨slot, cases, otherwise, fault, dispatch, suspensions, rfl, assembly⟩ :=
    stateMachine?_eq_some_iff_assembly.1 recognized
  obtain ⟨min, max, table⟩ := assembly.exists_tableSwitch
  exact ⟨fault, dispatch, suspensions, min, max, cases, otherwise, rfl, table, assembly.shape⟩

/-- The fault stands between the place where the only suspension point resumes and the check of the
    result behind it. -/
def nested : Body := ⟨nodes.toArray⟩
where
  nodes : List Node :=
    [.method .invokestatic "kotlin/coroutines/intrinsics/IntrinsicsKt" "getCOROUTINE_SUSPENDED"
        "()Ljava/lang/Object;",
      .var .astore 3, .var .aload 0, .field .getfield "C" "label" "I",
      .tableSwitch 0 1 [⟨0⟩, ⟨1⟩] ⟨3⟩, .label ⟨0⟩] ++ twins.check ⟨4⟩ ++
    [.simple .dup, .var .aload 3, .jump .ifAcmpne ⟨2⟩, .var .aload 3, .simple .areturn,
      .label ⟨1⟩, .simple .pop, .label ⟨3⟩,
      .type .new "java/lang/IllegalStateException", .simple .dup,
      .ldc (.string "call to 'resume' before 'invoke' with coroutine"),
      .method .invokespecial "java/lang/IllegalStateException" "<init>" "(Ljava/lang/String;)V",
      .simple .athrow] ++ twins.check ⟨5⟩ ++
    [.var .aload 1, .label ⟨2⟩, .simple .areturn]

/-- The range of the fault lies within that of the suspension point. -/
theorem shape_nested :
    stateMachine? nested = some [⟨22, 27⟩, ⟨4, 14⟩, ⟨15, 37⟩] ∧
      Shape nested [⟨0⟩, ⟨1⟩] ⟨3⟩ ⟨22, 27⟩ ⟨4, 14⟩ [⟨15, 37⟩] := by
  have recognized : stateMachine? nested = some [⟨22, 27⟩, ⟨4, 14⟩, ⟨15, 37⟩] := by
    decide +kernel
  obtain ⟨fault, dispatch, suspensions, min, max, cases, otherwise, split, table, shape⟩ :=
    exists_shape_of_stateMachine? recognized
  obtain ⟨rfl, rfl, rfl⟩ := by simpa only [List.cons.injEq] using split
  have there : (nested.instructionsFrom 0)[4]? =
      some (.tableSwitch 0 1 [⟨0⟩, ⟨1⟩] ⟨3⟩, 4) := by decide +kernel
  obtain ⟨-, -, rfl, rfl⟩ :=
    Insn.tableSwitch.inj (Prod.mk.inj (Option.some.inj (there.symm.trans table))).1
  exact ⟨recognized, shape⟩

end BranchSieve.Coroutine
