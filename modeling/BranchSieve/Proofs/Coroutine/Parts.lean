import BranchSieve.Proofs.Coroutine.Skeleton

/-!
# The parts that a matcher finds

Each look-up of the recognizer is described by the part of the skeleton that it finds, whatever the
cursor of the matcher. The look-up behind a comparison has at most one answer, and a comparison is
known from the case that it is resumed at; so the index at which the scan meets it does not matter.
-/

namespace BranchSieve.Coroutine

open Expectation (meetAll? meetAll?_cons meetAll?_nil meetAll?_append meet?_opcode meet?_var
  meet?_type meet?_invokeStatic meet?_invokeSuper meet?_ldcString)

variable {bindings after : Bindings} {nodes : List Node}

theorem meetAll?_resultCheck :
    meetAll? resultCheck bindings nodes = some after ↔
      IsResultCheck nodes ∧ bindings = after := by
  simp only [resultCheck, meetAll?_cons, meetAll?_nil, meet?_opcode, meet?_type, IsResultCheck,
    resultFailure]
  constructor
  · intro h
    rcases h with ⟨load, _, _, rfl, ⟨isLoad, rfl⟩, dup, _, _, rfl, ⟨isDup, rfl⟩, _, _, _, rfl,
      ⟨rfl, rfl⟩, branch, _, _, rfl, ⟨isBranch, rfl⟩, _, _, _, rfl, ⟨rfl, rfl⟩, field, _, _, rfl,
      ⟨isField, rfl⟩, throw, _, _, rfl, ⟨isThrow, rfl⟩, pop, _, _, rfl, ⟨isPop, rfl⟩, rfl, rfl⟩
    exact ⟨⟨load, dup, branch, field, throw, pop, rfl, isLoad, isDup, isBranch, isField, isThrow,
      isPop⟩, rfl⟩
  · intro h
    rcases h with ⟨⟨load, dup, branch, field, throw, pop, rfl, isLoad, isDup, isBranch, isField,
      isThrow, isPop⟩, rfl⟩
    exact ⟨load, _, _, rfl, ⟨isLoad, rfl⟩, dup, _, _, rfl, ⟨isDup, rfl⟩, _, _, _, rfl, ⟨rfl, rfl⟩,
      branch, _, _, rfl, ⟨isBranch, rfl⟩, _, _, _, rfl, ⟨rfl, rfl⟩, field, _, _, rfl,
      ⟨isField, rfl⟩, throw, _, _, rfl, ⟨isThrow, rfl⟩, pop, _, _, rfl, ⟨isPop, rfl⟩, rfl, rfl⟩

theorem meetAll?_resumeFault :
    meetAll? resumeFault bindings nodes = some after ↔
      IsResumeFault nodes ∧ bindings = after := by
  simp only [resumeFault, meetAll?_cons, meetAll?_nil, meet?_opcode, meet?_type, meet?_ldcString,
    meet?_invokeSuper, IsResumeFault, illegalState]
  constructor
  · intro h
    rcases h with ⟨_, _, _, rfl, ⟨rfl, rfl⟩, dup, _, _, rfl, ⟨isDup, rfl⟩, _, _, _, rfl, ⟨rfl,
      rfl⟩, _, _, _, rfl, ⟨rfl, rfl⟩, throw, _, _, rfl, ⟨isThrow, rfl⟩, rfl, rfl⟩
    exact ⟨⟨dup, throw, rfl, isDup, isThrow⟩, rfl⟩
  · intro h
    rcases h with ⟨⟨dup, throw, rfl, isDup, isThrow⟩, rfl⟩
    exact ⟨_, _, _, rfl, ⟨rfl, rfl⟩, dup, _, _, rfl, ⟨isDup, rfl⟩, _, _, _, rfl, ⟨rfl, rfl⟩,
      _, _, _, rfl, ⟨rfl, rfl⟩, throw, _, _, rfl, ⟨isThrow, rfl⟩, rfl, rfl⟩

/-- The prologue binds the slot of the marker. -/
theorem meetAll?_prologue :
    meetAll? prologue [] nodes = some after ↔
      ∃ descriptor slot this field switch,
        nodes = [.method .invokestatic "kotlin/coroutines/intrinsics/IntrinsicsKt"
            "getCOROUTINE_SUSPENDED" descriptor,
          .var .astore slot, .var .aload this, field, switch] ∧
        field.opcode? = some .getfield ∧ switch.opcode? = some .tableswitch ∧
        after = [("this", this), (suspendedSlot, slot)] := by
  simp only [prologue, meetAll?_cons, meetAll?_nil, meet?_opcode, meet?_var, meet?_invokeStatic]
  constructor
  · intro h
    rcases h with ⟨_, _, _, rfl, ⟨⟨descriptor, rfl⟩, rfl⟩, _, _, _, rfl, ⟨slot, rfl, marker⟩, _, _,
      _, rfl, ⟨this, rfl, self⟩, field, _, _, rfl, ⟨isField, rfl⟩, switch, _, _, rfl, ⟨isSwitch,
      rfl⟩, rfl, rfl⟩
    simp only [Bindings.bind?, List.lookup_nil, Option.some.injEq] at marker
    subst marker
    have other : List.lookup "this" [(suspendedSlot, slot)] = none := rfl
    simp only [Bindings.bind?, other, Option.some.injEq] at self
    exact ⟨descriptor, slot, this, field, switch, rfl, isField, isSwitch, self.symm⟩
  · intro h
    rcases h with ⟨descriptor, slot, this, field, switch, rfl, isField, isSwitch, rfl⟩
    exact ⟨_, _, _, rfl, ⟨⟨descriptor, rfl⟩, rfl⟩, _, _, _, rfl, ⟨slot, rfl, rfl⟩, _, _, _, rfl,
      ⟨this, rfl, rfl⟩, field, _, _, rfl, ⟨isField, rfl⟩, switch, _, _, rfl, ⟨isSwitch, rfl⟩,
      rfl, rfl⟩

/-- The marker is loaded from the slot that it is bound to. -/
theorem meet?_marker {slot : UInt16} (bound : bindings.lookup suspendedSlot = some slot)
    {node : Node} :
    (Expectation.var .aload suspendedSlot).meet? bindings node = some after ↔
      node = .var .aload slot ∧ bindings = after := by
  rw [meet?_var]
  constructor
  · intro h
    rcases h with ⟨slot', rfl, same⟩
    simp only [Bindings.bind?, bound, Option.ite_none_right_eq_some, Option.some.injEq] at same
    obtain ⟨rfl, rfl⟩ := same
    exact ⟨rfl, rfl⟩
  · intro h
    rcases h with ⟨rfl, rfl⟩
    exact ⟨slot, rfl, by simp [Bindings.bind?, bound]⟩

theorem meetAll?_comparison {slot : UInt16} (bound : bindings.lookup suspendedSlot = some slot) :
    meetAll? comparison bindings nodes = some after ↔
      (∃ branch : Node, nodes = [.var .aload slot, branch] ∧ branch.opcode? = some .ifAcmpne) ∧
        bindings = after := by
  simp only [comparison, meetAll?_cons, meetAll?_nil, meet?_opcode, meet?_marker bound]
  constructor
  · intro h
    rcases h with ⟨_, _, _, rfl, ⟨rfl, rfl⟩, branch, _, _, rfl, ⟨isBranch, rfl⟩, rfl, rfl⟩
    exact ⟨⟨branch, rfl, isBranch⟩, rfl⟩
  · intro h
    rcases h with ⟨⟨branch, rfl, isBranch⟩, rfl⟩
    exact ⟨_, _, _, rfl, ⟨rfl, rfl⟩, branch, _, _, rfl, ⟨isBranch, rfl⟩, rfl, rfl⟩

theorem meetAll?_suspension {slot : UInt16} (bound : bindings.lookup suspendedSlot = some slot) :
    meetAll? suspension bindings nodes = some after ↔
      (∃ back : Node, nodes = [.var .aload slot, back] ∧ back.opcode? = some .areturn) ∧
        bindings = after := by
  simp only [suspension, meetAll?_cons, meetAll?_nil, meet?_opcode, meet?_marker bound]
  constructor
  · intro h
    rcases h with ⟨_, _, _, rfl, ⟨rfl, rfl⟩, back, _, _, rfl, ⟨isBack, rfl⟩, rfl, rfl⟩
    exact ⟨⟨back, rfl, isBack⟩, rfl⟩
  · intro h
    rcases h with ⟨⟨back, rfl, isBack⟩, rfl⟩
    exact ⟨_, _, _, rfl, ⟨rfl, rfl⟩, back, _, _, rfl, ⟨isBack, rfl⟩, rfl, rfl⟩

/-! The check of the result in front of a continuation. -/

theorem resumedEnd?_eq_some_iff {m : Matcher} {continuation index last : Nat} :
    resumedEnd? m continuation index = some last ↔
      ∃ check reload next rest,
        m.body.instructionsFrom (index + 1) =
          check ++ (reload, last) :: (next, continuation) :: rest ∧
        IsResultCheck (check.map Prod.fst) ∧ reload.opcode? = some .aload := by
  unfold resumedEnd?
  rw [Option.bind_eq_bind, Option.bind_eq_some_iff]
  constructor
  · intro h
    rcases h with ⟨place, position, same⟩
    obtain ⟨follows, found⟩ := Option.ite_none_right_eq_some.1 same
    obtain rfl := Option.some.inj found
    obtain ⟨front, node, rest, after, ahead, met⟩ :=
      (Matcher.position?_expectAll_eq_some_iff (by simp)).1 position
    rw [Matcher.ahead_moveTo] at ahead
    obtain ⟨first, second, between, split, check, reload⟩ := meetAll?_append.1 met
    obtain ⟨one, others, _, rfl, isLoad, tail⟩ := meetAll?_cons.1 reload
    obtain ⟨rfl, -⟩ := meetAll?_nil.1 tail
    obtain ⟨rfl, only⟩ := List.append_inj' split rfl
    obtain ⟨rfl, -⟩ := List.cons.inj only
    have behind := Body.eq_instructionsFrom_of_append front ahead
    rw [Body.nextOpcode?_eq_head?, ← behind, Option.map_eq_some_iff] at follows
    obtain ⟨⟨next, _⟩, head, rfl⟩ := follows
    obtain ⟨rest, rfl⟩ := List.head?_eq_some_iff.1 head
    exact ⟨front, node, next, rest, ahead, (meetAll?_resultCheck.1 check).1,
      (meet?_opcode.1 isLoad).1⟩
  · intro h
    rcases h with ⟨check, reload, next, rest, ahead, isCheck, isLoad⟩
    have behind := Body.eq_instructionsFrom_of_append check ahead
    refine ⟨last, ?_, ?_⟩
    · refine (Matcher.position?_expectAll_eq_some_iff (by simp)).2
        ⟨check, reload, (next, continuation) :: rest, m.bindings, ?_, ?_⟩
      · rw [Matcher.ahead_moveTo, ahead]
      · exact meetAll?_append.2 ⟨_, _, m.bindings, rfl, meetAll?_resultCheck.2 ⟨isCheck, rfl⟩,
          meetAll?_cons.2 ⟨reload, [], m.bindings, rfl, meet?_opcode.2 ⟨isLoad, rfl⟩,
            meetAll?_nil.2 ⟨rfl, rfl⟩⟩⟩
    · rw [Body.nextOpcode?_eq_head?, ← behind]
      simp

/-- A check is in front of its continuation. -/
theorem ReloadsBefore.lt {body : Body} {index continuation last : Nat}
    (h : ReloadsBefore body index continuation last) : index < continuation := by
  obtain ⟨-, before, check, reload, split, -, -⟩ := h
  apply Nat.lt_of_not_le
  intro ge
  rw [Body.instructionsBetween_of_le (Nat.le_succ_of_le ge)] at split
  simp at split

/-- Only one instruction stands in front of a continuation. -/
theorem ReloadsBefore.unique {body : Body} {index continuation last last' : Nat}
    (h : ReloadsBefore body index continuation last)
    (h' : ReloadsBefore body index continuation last') : last = last' := by
  obtain ⟨-, before, check, reload, split, -, -⟩ := h
  obtain ⟨-, before', check', reload', split', -, -⟩ := h'
  rw [split] at split'
  have same := List.append_inj_right' split' rfl
  simp only [List.cons.injEq, Prod.mk.injEq, and_true] at same
  exact same.2

/-- A check that all stands behind a later index stands behind an earlier one. -/
theorem ReloadsBefore.mono {body : Body} {index later continuation last : Nat}
    (h : ReloadsBefore body later continuation last) (le : index ≤ later) :
    ReloadsBefore body index continuation last := by
  have lt := h.lt
  obtain ⟨there, before, check, reload, split, isCheck, isLoad⟩ := h
  refine ⟨there, body.instructionsBetween (index + 1) (later + 1) ++ before, check, reload, ?_,
    isCheck, isLoad⟩
  rw [Body.instructionsBetween_append (Nat.succ_le_succ le) (Nat.succ_le_of_lt lt), split]
  simp

/-- What is found behind an index stands in front of the continuation. -/
theorem reloadsBefore_of_resumedEnd? {m : Matcher} {index continuation last : Nat}
    (h : resumedEnd? m continuation index = some last) :
    ReloadsBefore m.body index continuation last := by
  obtain ⟨check, reload, next, rest, ahead, isCheck, isLoad⟩ := resumedEnd?_eq_some_iff.1 h
  have whole : m.body.instructionsFrom (index + 1) =
      ([] ++ check ++ [(reload, last)]) ++ (next, continuation) :: rest := by
    rw [ahead]
    simp
  have mem : (next, continuation) ∈ m.body.instructionsFrom (index + 1) := by simp [whole]
  obtain ⟨-, there, opcode⟩ := Body.mem_instructionsFrom.1 mem
  exact ⟨⟨next, there, opcode⟩, [], check, reload, Body.instructionsBetween_eq_of_append whole,
    isCheck, isLoad⟩

/-- The check is found at the latest from the instruction in front of it. -/
theorem exists_resumedEnd?_of_reloadsBefore {m : Matcher} {first continuation last : Nat}
    (h : ReloadsBefore m.body first continuation last) :
    ∃ index, first ≤ index ∧ index < m.body.size ∧
      resumedEnd? m continuation index = some last := by
  have lt := h.lt
  obtain ⟨⟨next, there, opcode⟩, before, check, reload, split, isCheck, isLoad⟩ := h
  have whole := Body.instructionsFrom_eq_append m.body (Nat.succ_le_of_lt lt)
  rw [split, Body.instructionsFrom_eq_cons there opcode] at whole
  obtain ⟨index, ge, ahead⟩ : ∃ index, first ≤ index ∧ m.body.instructionsFrom (index + 1) =
      check ++ (reload, last) :: (next, continuation) ::
        m.body.instructionsFrom (continuation + 1) := by
    rcases List.eq_nil_or_concat before with rfl | ⟨front, ⟨node, place⟩, rfl⟩
    · exact ⟨first, Nat.le_refl _, by simpa using whole⟩
    · have passed : m.body.instructionsFrom (first + 1) = front ++ (node, place) ::
          (check ++ (reload, last) :: (next, continuation) ::
            m.body.instructionsFrom (continuation + 1)) := by
        simpa using whole
      have mem : (node, place) ∈ m.body.instructionsFrom (first + 1) := by simp [passed]
      exact ⟨place, by have := (Body.mem_instructionsFrom.1 mem).1; omega,
        (Body.eq_instructionsFrom_of_append front passed).symm⟩
  have inside : index < m.body.size := by
    apply Nat.lt_of_not_le
    intro outside
    rw [Body.instructionsFrom_of_size_le (Nat.le_succ_of_le outside)] at ahead
    simp at ahead
  exact ⟨index, ge, inside,
    resumedEnd?_eq_some_iff.2 ⟨check, reload, next, _, ahead, isCheck, isLoad⟩⟩

/-- The look-up finds what the skeleton asks for in front of a continuation. -/
theorem findResumedEnd?_eq_some_iff {m : Matcher} {first continuation last : Nat} :
    findResumedEnd? m first continuation = some last ↔
      ReloadsBefore m.body first continuation last := by
  -- A found index lies anywhere between the check and the instruction in front of it, so what is
  -- found is compared, not the indices.
  have sound : ∀ found, findResumedEnd? m first continuation = some found →
      ReloadsBefore m.body first continuation found := by
    intro found h
    obtain ⟨index, inside, h⟩ := List.exists_of_findSome?_eq_some h
    exact (reloadsBefore_of_resumedEnd? h).mono (List.mem_range'_1.1 inside).1
  refine ⟨sound last, fun reloads => ?_⟩
  obtain ⟨index, ge, inside, hit⟩ := exists_resumedEnd?_of_reloadsBefore reloads
  have some_hit : (findResumedEnd? m first continuation).isSome := by
    rw [findResumedEnd?, List.findSome?_isSome_iff]
    exact ⟨index, List.mem_range'_1.2 ⟨ge, by omega⟩, by simp [hit]⟩
  obtain ⟨found, eq⟩ := Option.isSome_iff_exists.1 some_hit
  rw [eq, reloads.unique (sound found eq)]

/-! The comparison that a case of the table is resumed behind. -/

section Comparison

variable {m : Matcher} {slot : UInt16} {index place : Nat}

/-- A matcher that is moved meets the comparison with the next two instructions. -/
theorem expectAll_comparison_eq_on_iff (bound : m.bindings.lookup suspendedSlot = some slot)
    {after : Bindings} :
    (m.moveTo index).expectAll comparison = ⟨m.body, .on place, after⟩ ↔
      (∃ load branch rest, m.body.instructionsFrom (index + 1) =
          (.var .aload slot, load) :: (branch, place) :: rest ∧
        branch.opcode? = some .ifAcmpne) ∧ m.bindings = after := by
  have nonempty : comparison ≠ [] := by simp [comparison]
  rw [← Matcher.body_moveTo m index, Matcher.expectAll_eq_on_iff nonempty, Matcher.ahead_moveTo,
    Matcher.body_moveTo, Matcher.bindings_moveTo]
  constructor
  · intro h
    rcases h with ⟨front, branch, rest, ahead, met⟩
    obtain ⟨⟨_, split, isBranch⟩, same⟩ := (meetAll?_comparison bound).1 met
    obtain ⟨first, only⟩ := List.append_inj' (show _ = [_] ++ [_] from split) rfl
    obtain ⟨rfl, -⟩ := List.cons.inj only
    obtain ⟨⟨_, load⟩, rfl, rfl⟩ := List.map_eq_singleton_iff.1 first
    exact ⟨⟨load, _, rest, ahead, isBranch⟩, same⟩
  · intro h
    rcases h with ⟨⟨load, branch, rest, ahead, isBranch⟩, same⟩
    exact ⟨[(_, load)], branch, rest, ahead,
      (meetAll?_comparison bound).2 ⟨⟨branch, rfl, isBranch⟩, same⟩⟩

/-- Behind the comparison a matcher meets the return of the marker with the next two
    instructions. -/
theorem position?_expectAll_suspension {body : Body} {bindings : Bindings}
    (bound : bindings.lookup suspendedSlot = some slot) {last : Nat} :
    ((Matcher.mk body (.on place) bindings).expectAll suspension).position? = some last ↔
      ∃ load back rest, body.instructionsFrom (place + 1) =
          (.var .aload slot, load) :: (back, last) :: rest ∧ back.opcode? = some .areturn := by
  rw [Matcher.position?_expectAll_eq_some_iff (by simp [suspension])]
  constructor
  · intro h
    rcases h with ⟨front, back, rest, after, ahead, met⟩
    obtain ⟨⟨_, split, isBack⟩, -⟩ := (meetAll?_suspension bound).1 met
    obtain ⟨first, only⟩ := List.append_inj' (show _ = [_] ++ [_] from split) rfl
    obtain ⟨rfl, -⟩ := List.cons.inj only
    obtain ⟨⟨_, load⟩, rfl, rfl⟩ := List.map_eq_singleton_iff.1 first
    exact ⟨load, _, rest, ahead, isBack⟩
  · intro h
    rcases h with ⟨load, back, rest, ahead, isBack⟩
    exact ⟨[(_, load)], back, rest, bindings, ahead,
      (meetAll?_suspension bound).2 ⟨⟨back, rfl, isBack⟩, rfl⟩⟩

/-- The five instructions that a comparison with its resumption consists of, one by one. -/
theorem comparesAt_iff {body : Body} {resumption : Label} {continuation : Nat} :
    ComparesAt body slot resumption index continuation ↔
      ∃ load branch load' back last next rest target,
        body.instructionsFrom (index + 1) =
          (.var .aload slot, load) :: (.jump .ifAcmpne target, branch) ::
            (.var .aload slot, load') :: (back, last) :: next :: rest ∧
        back.opcode? = some .areturn ∧ body.labelTarget? resumption = some next.2 ∧
        body.labelTarget? target = some continuation := by
  constructor
  · intro h
    rcases h with ⟨compared, next, rest, target, ahead, ⟨back, split, isBack⟩, resumes, leads⟩
    obtain ⟨⟨_, load⟩, _, rfl, rfl, three⟩ := List.map_eq_cons_iff.1 split
    obtain ⟨⟨_, branch⟩, _, rfl, rfl, two⟩ := List.map_eq_cons_iff.1 three
    obtain ⟨⟨_, load'⟩, _, rfl, rfl, one⟩ := List.map_eq_cons_iff.1 two
    obtain ⟨⟨_, last⟩, rfl, rfl⟩ := List.map_eq_singleton_iff.1 one
    exact ⟨load, branch, load', _, last, next, rest, target, ahead, isBack, resumes, leads⟩
  · intro h
    rcases h with ⟨load, branch, load', back, last, next, rest, target, ahead, isBack, resumes,
      leads⟩
    exact ⟨[(_, load), (_, branch), (_, load'), (_, last)], next, rest, target, ahead,
      ⟨back, rfl, isBack⟩, resumes, leads⟩

/-- The scan sees a comparison exactly where the skeleton has it. -/
theorem continuation?_eq_some_iff (bound : m.bindings.lookup suspendedSlot = some slot)
    {resumption : Label} {found : Nat} :
    continuation? m resumption index = some found ↔
      ComparesAt m.body slot resumption index found := by
  rw [comparesAt_iff]
  unfold continuation?
  dsimp only
  constructor
  · intro h
    split at h
    · next op target node =>
      obtain ⟨continuation, leads, h⟩ := Option.bind_eq_some_iff.1 h
      obtain ⟨last, suspended, h⟩ := Option.bind_eq_some_iff.1 h
      obtain ⟨resumed, next, h⟩ := Option.bind_eq_some_iff.1 h
      obtain ⟨resumes, same⟩ := Option.ite_none_right_eq_some.1 h
      obtain rfl := Option.some.inj same
      obtain ⟨branch, position, there⟩ := Option.bind_eq_some_iff.1 node
      have ended := Matcher.expectAll_eq_on_of_position? position
      rw [Matcher.body_moveTo] at ended
      obtain ⟨⟨load, jump, rest, ahead, isBranch⟩, same⟩ :=
        (expectAll_comparison_eq_on_iff bound).1 ended
      rw [ended, ← same] at suspended
      obtain ⟨load', back, rest', ahead', isBack⟩ :=
        (position?_expectAll_suspension bound).1 suspended
      have behind := Body.eq_instructionsFrom_of_append [_] ahead
      have behind' := Body.eq_instructionsFrom_of_append [_] ahead'
      obtain ⟨following, head, rfl⟩ := Option.map_eq_some_iff.1
        ((Body.nextOpcode?_eq_head? _ _).symm.trans next)
      obtain ⟨rest'', behind''⟩ := List.head?_eq_some_iff.1 head
      obtain rfl : jump = .jump op target := by
        have mem : (jump, branch) ∈ m.body.instructionsFrom (index + 1) := by simp [ahead]
        rw [Matcher.body_expectAll] at there
        exact Option.some.inj ((Body.mem_instructionsFrom.1 mem).2.1.symm.trans there)
      obtain rfl := Option.some.inj isBranch
      refine ⟨load, branch, load', back, last, following, rest'', target, ?_, isBack, resumes,
        leads⟩
      rw [ahead, behind, ahead', behind', ← behind'']
    · simp at h
  · intro given
    rcases given with ⟨load, branch, load', back, last, next, rest, target, ahead, isBack, resumes,
      leads⟩
    have ended : (m.moveTo index).expectAll comparison = ⟨m.body, .on branch, m.bindings⟩ :=
      (expectAll_comparison_eq_on_iff bound).2 ⟨⟨load, _, _, ahead, rfl⟩, rfl⟩
    have jump : m.body.get? branch = some (.jump .ifAcmpne target) := by
      have mem : (.jump .ifAcmpne target, branch) ∈ m.body.instructionsFrom (index + 1) := by
        rw [ahead]
        exact List.mem_cons_of_mem _ List.mem_cons_self
      exact (Body.mem_instructionsFrom.1 mem).2.1
    have suspended := (position?_expectAll_suspension bound).2
      ⟨load', back, _, (Body.eq_instructionsFrom_of_append [_] ahead).symm, isBack⟩
    have follows : m.body.nextOpcode? last = some next.2 := by
      rw [Body.nextOpcode?_eq_head?, ← Body.eq_instructionsFrom_of_append [_, _, _] ahead]
      rfl
    have node : ((m.moveTo index).expectAll comparison).node? = some (.jump .ifAcmpne target) := by
      rw [ended]
      exact jump
    rw [node, ended]
    simp [leads, suspended, follows, resumes]

end Comparison

/-- Comparisons that are resumed at the same case go on at the same continuation. -/
theorem ComparesAt.continuation_unique {body : Body} {slot : UInt16} {resumption : Label}
    {index index' continuation continuation' : Nat}
    (h : ComparesAt body slot resumption index continuation)
    (h' : ComparesAt body slot resumption index' continuation') :
    continuation = continuation' ∧
      body.instructionsFrom (index + 1) = body.instructionsFrom (index' + 1) := by
  obtain ⟨compared, next, rest, target, ahead, ⟨back, split, -⟩, resumes, leads⟩ := h
  obtain ⟨compared', next', rest', target', ahead', ⟨back', split', -⟩, resumes', leads'⟩ := h'
  have length : compared.length = 4 := by simpa using congrArg List.length split
  have length' : compared'.length = 4 := by simpa using congrArg List.length split'
  have place : next'.2 = next.2 := Option.some.inj (resumes'.symm.trans resumes)
  obtain ⟨node, index_next⟩ := next
  obtain ⟨node', index_next'⟩ := next'
  obtain rfl : index_next' = index_next := place
  have same : body.instructionsFrom (index + 1) = body.instructionsFrom (index' + 1) :=
    Body.instructionsFrom_eq_of_same_place ahead ahead' (length.trans length'.symm)
  refine ⟨?_, same⟩
  rw [ahead, ahead'] at same
  obtain ⟨rfl, -⟩ := List.append_inj same (length.trans length'.symm)
  rw [split] at split'
  simp only [List.cons.injEq, Insn.jump.injEq, true_and, and_true] at split'
  obtain ⟨rfl, -⟩ := split'
  exact Option.some.inj (leads.symm.trans leads')

/-- The scan stops at the first index from which the comparison is seen. -/
theorem findSuspension?_eq_some_iff {m : Matcher} {slot : UInt16}
    (bound : m.bindings.lookup suspendedSlot = some slot) {resumption : Label}
    {first index found : Nat} :
    findSuspension? m resumption first = some (index, found) ↔
      first ≤ index ∧ ComparesAt m.body slot resumption index found ∧
        ∀ earlier other, first ≤ earlier → earlier < index →
          ¬ ComparesAt m.body slot resumption earlier other := by
  simp only [← continuation?_eq_some_iff bound]
  rw [findSuspension?, List.findSome?_eq_some_iff]
  constructor
  · intro h
    rcases h with ⟨before, here, behind, split, hit, missed⟩
    obtain ⟨continuation, sees, same⟩ := Option.map_eq_some_iff.1 hit
    obtain ⟨rfl, rfl⟩ := Prod.mk.inj same
    obtain ⟨count, -, rfl, others⟩ := List.range'_eq_append_iff.1 split
    obtain ⟨start, -, -⟩ := List.range'_eq_cons_iff.1 others.symm
    refine ⟨by omega, sees, fun earlier other ge lt seen => ?_⟩
    have unseen := missed earlier (List.mem_range'_1.2 ⟨ge, by omega⟩)
    simp [seen] at unseen
  · intro h
    rcases h with ⟨ge, sees, unseen⟩
    have inside : index < m.body.size := by
      obtain ⟨compared, next, rest, -, ahead, -⟩ := (continuation?_eq_some_iff bound).1 sees
      apply Nat.lt_of_not_le
      intro outside
      rw [Body.instructionsFrom_of_size_le (Nat.le_succ_of_le outside)] at ahead
      simp at ahead
    refine ⟨List.range' first (index - first), index,
      List.range' (index + 1) (m.body.size - index - 1), ?_, by simp [sees], ?_⟩
    · rw [← List.range'_succ, show m.body.size - index - 1 + 1 = m.body.size - index by omega]
      have joined := List.range'_append_1 (s := first) (m := index - first)
        (n := m.body.size - index)
      rw [Nat.add_sub_of_le ge] at joined
      rw [joined]
      congr 1
      omega
    · intro earlier mem
      obtain ⟨ge', lt⟩ := List.mem_range'_1.1 mem
      rw [Option.map_eq_none_iff, Option.eq_none_iff_forall_not_mem]
      exact fun other seen => unseen earlier other ge' (by omega) seen

end BranchSieve.Coroutine
