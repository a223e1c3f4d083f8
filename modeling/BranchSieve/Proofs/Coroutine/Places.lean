import BranchSieve.Proofs.Coroutine.Construction
import BranchSieve.Proofs.Coroutine.Scan
import Mathlib.Data.List.Nodup

/-!
# Where the suspension points of a state machine are

A range of a suspension point stands for the jump that it compares at, the second instruction behind
its start. The cases of a table and these jumps belong together one to one: two cases have the same
jump exactly if they lead to the same instruction. So the ranges stand for different jumps exactly
if no two cases lead to the same place, and then each of them starts on an instruction. Where two
adjacent cases lead to the same place, the scan can see one comparison for both of them, and the
range of the second one starts on the marker in front of it.
-/

namespace BranchSieve.Coroutine

variable {body : Body} {slot : UInt16} {resumption resumption' : Label}
  {first index index' continuation continuation' last : Nat}

/-- The index of the second instruction behind an index. -/
def jumpBehind? (body : Body) (index : Nat) : Option Nat :=
  (body.instructionsFrom (index + 1))[1]?.map Prod.snd

/-- Behind an index from which a comparison is seen its jump is the second instruction. -/
theorem ComparesAt.exists_jump (h : ComparesAt body slot resumption index continuation) :
    ∃ place target, jumpBehind? body index = some place ∧
      body.get? place = some (.jump .ifAcmpne target) := by
  obtain ⟨load, branch, _, _, _, _, _, target, ahead, -⟩ := comparesAt_iff.1 h
  have mem : (.jump .ifAcmpne target, branch) ∈ body.instructionsFrom (index + 1) := by simp [ahead]
  exact ⟨branch, target, by simp [jumpBehind?, ahead], (Body.mem_instructionsFrom.1 mem).2.1⟩

/-- Comparisons have the same jump exactly if their cases lead to the same place. -/
theorem ComparesAt.jumpBehind?_eq_iff (h : ComparesAt body slot resumption index continuation)
    (h' : ComparesAt body slot resumption' index' continuation') :
    jumpBehind? body index = jumpBehind? body index' ↔
      body.labelTarget? resumption = body.labelTarget? resumption' := by
  constructor
  · intro same
    obtain ⟨_, branch, _, _, _, _, _, _, ahead, _, resumes, _⟩ := comparesAt_iff.1 h
    obtain ⟨_, branch', _, _, _, _, _, _, ahead', _, resumes', _⟩ := comparesAt_iff.1 h'
    simp only [jumpBehind?, ahead, ahead', List.getElem?_cons_succ, List.getElem?_cons_zero,
      Option.map_some, Option.some.injEq] at same
    subst same
    have behind := Body.instructionsFrom_eq_of_same_place
      (show body.instructionsFrom (index + 1) = [_] ++ _ from ahead)
      (show body.instructionsFrom (index' + 1) = [_] ++ _ from ahead') rfl
    rw [ahead, ahead'] at behind
    simp only [List.cons.injEq] at behind
    rw [resumes, resumes', behind.2.2.2.2.1]
  · intro same
    have moved : ComparesAt body slot resumption index' continuation' := by
      obtain ⟨compared, next, rest, target, ahead, isComparison, resumes, leads⟩ := h'
      exact ⟨compared, next, rest, target, ahead, isComparison, same.trans resumes, leads⟩
    rw [jumpBehind?, jumpBehind?, (h.continuation_unique moved).2]

/-- The place that a case leads to and the jump that its comparison has. -/
def Compared (body : Body) (slot : UInt16) (resumed jump : Option Nat) : Prop :=
  ∃ resumption index continuation, ComparesAt body slot resumption index continuation ∧
    body.labelTarget? resumption = resumed ∧ jumpBehind? body index = jump

theorem biUnique_compared (body : Body) (slot : UInt16) :
    Relator.BiUnique (Compared body slot) := by
  constructor
  · rintro _ _ _ ⟨_, _, _, seen, rfl, rfl⟩ ⟨_, _, _, seen', rfl, same⟩
    exact (seen.jumpBehind?_eq_iff seen').1 same.symm
  · rintro _ _ _ ⟨_, _, _, seen, rfl, rfl⟩ ⟨_, _, _, seen', same, rfl⟩
    exact (seen.jumpBehind?_eq_iff seen').2 same.symm

/-- Each range that the scan finds has the jump of its case. -/
theorem Scans.compared {resumptions : List Label} {ranges : List IgnoreRange}
    (scans : Scans body slot resumptions first ranges) :
    List.Forall₂ (Compared body slot) (resumptions.map body.labelTarget?)
      (ranges.map fun range => jumpBehind? body range.first) := by
  induction scans with
  | nil => exact .nil
  | cons found _ _ ih => exact .cons ⟨_, _, _, found.seen, rfl, rfl⟩ ih

theorem Scans.exists_jump {resumptions : List Label} {ranges : List IgnoreRange}
    (scans : Scans body slot resumptions first ranges) :
    ∀ range ∈ ranges, ∃ place target, jumpBehind? body range.first = some place ∧
      body.get? place = some (.jump .ifAcmpne target) := by
  induction scans with
  | nil => simp
  | cons found _ _ ih => exact List.forall_mem_cons.2 ⟨found.seen.exists_jump, ih⟩

/-- The reload in front of a continuation is an instruction. -/
theorem ReloadsBefore.hasOpcode_last (h : ReloadsBefore body index continuation last) :
    body.HasOpcode last := by
  have lt := h.lt
  obtain ⟨-, before, check, reload, split, -, -⟩ := h
  have mem : (reload, last) ∈ body.instructionsFrom (index + 1) := by
    rw [Body.instructionsFrom_eq_append body lt, split]
    simp
  exact ⟨reload, (Body.mem_instructionsFrom.1 mem).2⟩

theorem Scans.hasOpcode_last {resumptions : List Label} {ranges : List IgnoreRange}
    (scans : Scans body slot resumptions first ranges) :
    ∀ range ∈ ranges, body.HasOpcode range.last := by
  induction scans with
  | nil => simp
  | cons _ resumed _ ih => exact List.forall_mem_cons.2 ⟨resumed.hasOpcode_last, ih⟩

/-- A comparison that the scan sees at once from a marker is the one that it saw before. -/
theorem FirstSeen.labelTarget?_eq (before : ComparesAt body slot resumption index continuation)
    (found : FirstSeen body slot resumption' (index + 1) index' continuation')
    (marker : ¬ body.HasOpcode index') :
    body.labelTarget? resumption = body.labelTarget? resumption' := by
  obtain rfl := found.eq_or_hasOpcode.resolve_right marker
  rw [← before.jumpBehind?_eq_iff found.seen, jumpBehind?, jumpBehind?,
    Body.instructionsFrom_of_not_hasOpcode marker]

/-- The scan stops at instructions as long as each case leads to another place than those before. -/
theorem Scans.hasOpcode_first {resumptions : List Label} {ranges : List IgnoreRange}
    (scans : Scans body slot resumptions first ranges)
    (apart : (resumptions.map body.labelTarget?).Nodup)
    (start : body.HasOpcode first ∨
      ∃ index resumption continuation, first = index + 1 ∧
        ComparesAt body slot resumption index continuation ∧
        body.labelTarget? resumption ∉ resumptions.map body.labelTarget?) :
    ∀ range ∈ ranges, body.HasOpcode range.first := by
  induction scans with
  | nil => simp
  | @cons resumption resumptions first continuation range ranges found _ _ ih =>
    rw [List.map_cons, List.nodup_cons] at apart
    refine List.forall_mem_cons.2 ⟨?_, ih apart.2
      (.inr ⟨range.first, resumption, continuation, rfl, found.seen, apart.1⟩)⟩
    by_contra marker
    rcases start with opcode | ⟨index, before, other, rfl, seen, unlike⟩
    · rw [found.eq_or_hasOpcode.resolve_right marker] at marker
      exact marker opcode
    · rw [found.labelTarget?_eq seen marker] at unlike
      exact unlike (by simp)

/-- Behind the fault, a state machine has its dispatch, which starts at the table, and a range for
    each further case, which has a jump of its comparison. These ranges are apart, with all of them
    on instructions, exactly if no two of the cases lead to the same place. -/
theorem nodup_jumpBehind?_iff {ranges : List IgnoreRange}
    (recognized : stateMachine? body = some ranges) :
    ∃ fault dispatch suspensions min max cases otherwise,
      ranges = fault :: dispatch :: suspensions ∧
      body.get? dispatch.first = some (.tableSwitch min max cases otherwise) ∧
      suspensions.length = cases.tail.length ∧
      (∀ range ∈ suspensions, ∃ place target, jumpBehind? body range.first = some place ∧
        body.get? place = some (.jump .ifAcmpne target)) ∧
      ((∀ range ∈ dispatch :: suspensions,
          body.HasOpcode range.first ∧ body.HasOpcode range.last) ∧
        (suspensions.map fun range => jumpBehind? body range.first).Nodup ↔
          (cases.tail.map body.labelTarget?).Nodup) := by
  obtain ⟨slot, fault, dispatch, suspensions, min, max, cases, otherwise, rfl, table, checked,
    scans⟩ := exists_scans_of_stateMachine? recognized
  have nodup_iff := List.rel_nodup (biUnique_compared body slot) scans.compared
  refine ⟨fault, dispatch, suspensions, min, max, cases, otherwise, rfl, table, scans.length_eq,
    scans.exists_jump, fun apart => nodup_iff.2 apart.2, fun apart => ⟨?_, nodup_iff.1 apart⟩⟩
  have starts := scans.hasOpcode_first apart (.inl checked)
  refine List.forall_mem_cons.2 ⟨⟨⟨_, table, rfl⟩, checked⟩, fun range mem => ?_⟩
  exact ⟨starts range mem, scans.hasOpcode_last range mem⟩

/-- The cases of two constructed suspension points lead to two places. -/
theorem nodup_jumpBehind?_decoyed :
    stateMachine? Layout.decoyed.body = some [⟨68, 73⟩, ⟨5, 15⟩, ⟨30, 45⟩, ⟨49, 65⟩] ∧
      (∀ range ∈ ([⟨5, 15⟩, ⟨30, 45⟩, ⟨49, 65⟩] : List IgnoreRange),
        Layout.decoyed.body.HasOpcode range.first ∧ Layout.decoyed.body.HasOpcode range.last) ∧
      ([30, 49].map (jumpBehind? Layout.decoyed.body)).Nodup := by
  have recognized : stateMachine? Layout.decoyed.body =
      some [⟨68, 73⟩, ⟨5, 15⟩, ⟨30, 45⟩, ⟨49, 65⟩] := by decide +kernel
  obtain ⟨fault, dispatch, suspensions, min, max, cases, otherwise, split, table, -, -, apart⟩ :=
    nodup_jumpBehind?_iff recognized
  obtain ⟨rfl, rfl, rfl⟩ := by simpa only [List.cons.injEq] using split
  obtain rfl : [⟨0⟩, ⟨1⟩, ⟨3⟩] = cases := by
    have there : Layout.decoyed.body.get? 5 = some (.tableSwitch 0 2 [⟨0⟩, ⟨1⟩, ⟨3⟩] ⟨5⟩) := by
      decide +kernel
    exact (Insn.tableSwitch.inj (Option.some.inj (there.symm.trans table))).2.2.1
  exact ⟨recognized, apart.2 (by decide +kernel)⟩

/-- Both cases of the twins have the same jump, and the second range starts on a line number. -/
theorem jumpBehind?_twins :
    stateMachine? twins = some [⟨34, 39⟩, ⟨4, 14⟩, ⟨15, 31⟩, ⟨16, 31⟩] ∧
      ¬ twins.HasOpcode 16 ∧ jumpBehind? twins 15 = jumpBehind? twins 16 := by
  refine ⟨by decide +kernel, ?_, by decide +kernel⟩
  rintro ⟨node, there, opcode⟩
  obtain rfl : .line 5 ⟨0⟩ = node := Option.some.inj there
  simp [Insn.isMarker, Insn.opcode?] at opcode

end BranchSieve.Coroutine
