import BranchSieve.Proofs.Bytecode.Padding
import BranchSieve.Proofs.Coroutine.Scan

/-!
# Markers do not hide a state machine

A state machine that is padded with markers is found with ranges over the same instructions. The
scan goes from node to node, so it takes other steps in the padded body and may see a comparison
from a marker that the body does not have. Wherever it stops, it has the instructions ahead that the
scan of the body has where that one stops, and it never stops further on.
-/

namespace BranchSieve

namespace Padding

variable {body padded : Body} (padding : Padding body padded)

/-- Two indices have the same instructions ahead, and the one in the padded body is not beyond the
    other. -/
structure Aligned (index index' : Nat) : Prop where
  le : index' ≤ padding.image index
  same : padded.instructionsFrom index' = (body.instructionsFrom index).map padding.move

/-- A range of the padded body covers the instructions that a range of the body covers. -/
def Covers (range range' : IgnoreRange) : Prop :=
  ∀ place, range'.contains place = true ∧ padded.HasOpcode place ↔
    ∃ index, range.contains index = true ∧ body.HasOpcode index ∧ padding.image index = place

variable {padding} {index index' first first' : Nat}

theorem aligned_image (index : Nat) : padding.Aligned index (padding.image index) :=
  ⟨Nat.le_refl _, padding.instructionsFrom_image index⟩

/-- The same instructions lie ahead of aligned indices. -/
theorem Aligned.le_image_iff (aligned : padding.Aligned first first')
    (opcode : body.HasOpcode index) : first' ≤ padding.image index ↔ first ≤ index := by
  refine ⟨fun le => ?_, fun le => Nat.le_trans aligned.le (padding.strictMono.monotone le)⟩
  obtain ⟨node, there, isOpcode⟩ := opcode
  have mem : (node, padding.image index) ∈ padded.instructionsFrom first' := by
    refine Body.mem_instructionsFrom.2 ⟨le, ?_, isOpcode⟩
    exact (padding.get?_of_isMarker_eq_false isOpcode).2 ⟨index, there, rfl⟩
  rw [aligned.same] at mem
  obtain ⟨⟨_, origin⟩, ahead, moved⟩ := List.mem_map.1 mem
  obtain rfl : origin = index := padding.strictMono.injective (Prod.mk.inj moved).2
  exact (Body.mem_instructionsFrom.1 ahead).1

theorem Aligned.covers (aligned : padding.Aligned first first') (last : Nat) :
    padding.Covers ⟨first, last⟩ ⟨first', padding.image last⟩ := by
  intro place
  simp only [IgnoreRange.contains, Bool.and_eq_true, decide_eq_true_eq]
  constructor
  · rintro ⟨⟨ge, le⟩, carried⟩
    obtain ⟨index, opcode, rfl⟩ := padding.hasOpcode_iff.1 carried
    exact ⟨index, ⟨(aligned.le_image_iff opcode).1 ge, padding.strictMono.le_iff_le.1 le⟩, opcode,
      rfl⟩
  · rintro ⟨index, ⟨ge, le⟩, opcode, rfl⟩
    exact ⟨⟨(aligned.le_image_iff opcode).2 ge, padding.strictMono.monotone le⟩,
      padding.hasOpcode_iff.2 ⟨index, opcode, rfl⟩⟩

end Padding

namespace Coroutine

open Padding (Aligned aligned_image)

variable {body padded : Body} {padding : Padding body padded} {slot : UInt16} {resumption : Label}
  {first first' index index' continuation last : Nat}

/-- A comparison is seen wherever its instructions lie ahead. -/
theorem ComparesAt.pad (h : ComparesAt body slot resumption index continuation)
    (known : resumption ∈ body.labels)
    (same : padded.instructionsFrom (index' + 1) =
      (body.instructionsFrom (index + 1)).map padding.move) :
    ComparesAt padded slot resumption index' (padding.image continuation) := by
  obtain ⟨load, branch, load', back, last, next, rest, target, ahead, isBack, resumes, leads⟩ :=
    comparesAt_iff.1 h
  have jump : (.jump .ifAcmpne target, branch) ∈ body.instructionsFrom (index + 1) := by
    simp [ahead]
  have mentioned : target ∈ body.labels :=
    Body.mem_labels_of_get? (Body.mem_instructionsFrom.1 jump).2.1 (by simp [Insn.labels])
  rw [ahead] at same
  exact comparesAt_iff.2 ⟨_, _, _, _, _, padding.move next, rest.map padding.move, target, same,
    isBack, padding.labelTarget?_eq_some known resumes,
    padding.labelTarget?_eq_some mentioned leads⟩

/-- The check in front of a continuation is found wherever its instructions lie ahead. -/
theorem ReloadsBefore.pad (h : ReloadsBefore body index continuation last)
    (le : index' ≤ padding.image index)
    (same : padded.instructionsFrom (index' + 1) =
      (body.instructionsFrom (index + 1)).map padding.move) :
    ReloadsBefore padded index' (padding.image continuation) (padding.image last) := by
  have lt := h.lt
  obtain ⟨opcode, before, check, reload, split, isCheck, isLoad⟩ := h
  have lt' : index' < padding.image continuation :=
    Nat.lt_of_le_of_lt le (padding.strictMono lt)
  refine ⟨padding.hasOpcode_iff.2 ⟨continuation, opcode, rfl⟩, before.map padding.move,
    check.map padding.move, reload, ?_, by rwa [padding.map_fst_map_move], isLoad⟩
  rw [Body.instructionsFrom_eq_append padded lt', Body.instructionsFrom_eq_append body lt,
    List.map_append, padding.instructionsFrom_image, split] at same
  rw [List.append_cancel_right same]
  simp [Padding.move]

/-- The scan of the padded body stops in front of the same comparison, and so it does not fall
    behind or get ahead. -/
theorem FirstSeen.pad (found : FirstSeen body slot resumption first index continuation)
    (known : resumption ∈ body.labels) (aligned : padding.Aligned first first') :
    ∃ index', FirstSeen padded slot resumption first' index' (padding.image continuation) ∧
      padding.Aligned index index' ∧ padding.Aligned (index + 1) (index' + 1) := by
  have seen := found.seen.pad known (padding.instructionsFrom_image_succ index)
  have ge : first' ≤ padding.image index :=
    Nat.le_trans aligned.le (padding.strictMono.monotone found.ge)
  obtain ⟨index', le, found'⟩ := exists_firstSeen ge seen
  have behind := (found'.seen.continuation_unique seen).2
  have same := behind.trans (padding.instructionsFrom_image_succ index)
  have next : padding.image index < padding.image (index + 1) :=
    padding.strictMono (Nat.lt_succ_self index)
  refine ⟨index', found', ⟨le, ?_⟩, ⟨by omega, same⟩⟩
  by_cases opcode : body.HasOpcode index
  · -- From further in front, the instruction at `index` would come before the comparison.
    have there : index' = padding.image index := by
      apply Nat.le_antisymm le
      apply Nat.le_of_not_lt
      intro lt
      have opcode' : padded.HasOpcode (padding.image index) :=
        padding.hasOpcode_iff.2 ⟨index, opcode, rfl⟩
      exact opcode'.instructionsFrom_ne (Nat.lt_succ_self _)
        (Body.instructionsFrom_eq_of_between lt (Nat.le_succ _) behind)
    rw [there]
    exact padding.instructionsFrom_image index
  · -- The scan of the body has not moved, and neither scan passes an instruction.
    obtain rfl := found.eq_or_hasOpcode.resolve_right opcode
    have passed := Body.instructionsFrom_of_not_hasOpcode opcode
    have still : padded.instructionsFrom first' = padded.instructionsFrom (index' + 1) := by
      rw [aligned.same, same, passed]
    rw [Body.instructionsFrom_eq_of_between found'.ge (Nat.le_succ _) still, same, passed]

/-- The scan of the padded body finds as much as that of the body. -/
theorem Scans.pad {resumptions : List Label} {ranges : List IgnoreRange}
    (scans : Scans body slot resumptions first ranges)
    (known : ∀ resumption ∈ resumptions, resumption ∈ body.labels)
    (aligned : padding.Aligned first first') :
    ∃ ranges', Scans padded slot resumptions first' ranges' ∧
      List.Forall₂ padding.Covers ranges ranges' := by
  induction scans generalizing first' with
  | nil => exact ⟨[], .nil, .nil⟩
  | @cons _ _ _ _ range _ found resumed _ ih =>
    simp only [List.forall_mem_cons] at known
    obtain ⟨index', found', here, behind⟩ := found.pad known.1 aligned
    obtain ⟨ranges', rest, covered⟩ := ih known.2 behind
    exact ⟨⟨index', padding.image range.last⟩ :: ranges',
      .cons found' (resumed.pad here.le behind.same) rest, .cons (here.covers range.last) covered⟩

/-- A state machine that is padded with markers is recognized, with as many ranges, each over the
    instructions that it covered before. -/
theorem stateMachine?_of_padding (padding : Padding body padded) {ranges : List IgnoreRange}
    (recognized : stateMachine? body = some ranges) :
    ∃ ranges', stateMachine? padded = some ranges' ∧
      List.Forall₂ padding.Covers ranges ranges' := by
  obtain ⟨slot, this, cases, otherwise, dispatch, switchNode, switch, check, pop, checkedEnd, rest,
    suspensions, start, fault, throw, faultEnd, after, ahead, isDispatch, isCheck, suspended,
    placed, ahead', isFault, rfl⟩ := stateMachine?_eq_some_iff.1 recognized
  have known : ∀ label ∈ cases ++ [otherwise], label ∈ body.labels := by
    obtain ⟨min, max, rfl⟩ := isDispatch.exists_eq_tableSwitch
    have mem : (.tableSwitch min max cases otherwise, switch) ∈ body.instructionsFrom 0 := by
      simp [ahead]
    exact fun label => Body.mem_labels_of_get? (Body.mem_instructionsFrom.1 mem).2.1
  have start' : padding.Aligned checkedEnd (padding.image checkedEnd) := aligned_image checkedEnd
  obtain ⟨suspensions', scans, covered⟩ := ((suspensionRanges?_eq_some_iff rfl).1 suspended).pad
    (fun resumption mem => known resumption (List.mem_append_left _ (List.mem_of_mem_tail mem)))
    start'
  refine ⟨_, stateMachine?_eq_some_iff.2 ⟨slot, this, cases, otherwise, dispatch.map padding.move,
    switchNode, padding.image switch, check.map padding.move, pop, padding.image checkedEnd,
    rest.map padding.move, suspensions', padding.image start, fault.map padding.move, throw,
    padding.image faultEnd, after.map padding.move, ?_, ?_, ?_,
    (suspensionRanges?_eq_some_iff rfl).2 scans,
    padding.labelIndex?_eq_some (known otherwise (by simp)) placed, ?_, ?_, rfl⟩,
    .cons ((aligned_image start).covers faultEnd)
      (.cons ((aligned_image switch).covers checkedEnd) covered)⟩
  · rw [padding.instructionsFrom_zero, ahead]
    simp [Padding.move]
  · rwa [padding.map_fst_map_move]
  · rwa [padding.map_fst_map_move]
  · rw [padding.instructionsFrom_image_succ, ahead']
    simp [Padding.move]
  · rwa [padding.map_fst_map_move]

/-- The twin cases with a label and a frame in front of the line number that the scan starts at. -/
def paddedTwins : Body := twins.insert 16 [.label ⟨9⟩, .frame "F_SAME"]

/-- The scan of the padded body starts for the second case at the new label. -/
theorem stateMachine?_paddedTwins :
    stateMachine? twins = some [⟨34, 39⟩, ⟨4, 14⟩, ⟨15, 31⟩, ⟨16, 31⟩] ∧
      ∃ ranges', stateMachine? paddedTwins = some ranges' ∧
        List.Forall₂ (Padding.insert twins 16 (by decide) [.label ⟨9⟩, .frame "F_SAME"]
          (by decide) (by decide)).Covers [⟨34, 39⟩, ⟨4, 14⟩, ⟨15, 31⟩, ⟨16, 31⟩] ranges' := by
  have recognized : stateMachine? twins = some [⟨34, 39⟩, ⟨4, 14⟩, ⟨15, 31⟩, ⟨16, 31⟩] := by
    decide +kernel
  exact ⟨recognized, stateMachine?_of_padding _ recognized⟩

end Coroutine

end BranchSieve
