import BranchSieve.Proofs.Coroutine.Extent
import BranchSieve.Proofs.Filter
import Mathlib.Data.Set.Card

/-!
# What an analysis reports

The report of a class has a report for each of its methods, in their order, whether or not methods
are looked at in parallel. Either a method has all ranges of its state machine or none at all. The
instructions in its ranges are counted once each, however many ranges they lie in; the dispatch and
the fault alone have fourteen.
-/

namespace BranchSieve

/-! ## Counting -/

namespace Body

variable {body : Body} {ranges : List IgnoreRange}

/-- The indices of the instructions that lie in some of the ranges. -/
def ignored (body : Body) (ranges : List IgnoreRange) : Set Nat :=
  {index | body.HasOpcode index ∧
    ∃ range ∈ ranges, range.first ≤ index ∧ index ≤ range.last}

/-- The instructions that lie in some of the ranges, in their order. -/
def ignoredInstructions (body : Body) (ranges : List IgnoreRange) : List (Node × Nat) :=
  (body.instructionsFrom 0).filter fun instruction => ranges.any (·.contains instruction.2)

theorem mem_ignoredInstructions_iff {instruction : Node × Nat} :
    instruction ∈ body.ignoredInstructions ranges ↔
      instruction ∈ body.instructionsFrom 0 ∧
        ∃ range ∈ ranges, range.first ≤ instruction.2 ∧ instruction.2 ≤ range.last := by
  simp [ignoredInstructions, IgnoreRange.contains]

theorem ignoredCount_eq_length :
    body.ignoredCount ranges = (body.ignoredInstructions ranges).length := by
  rw [ignoredCount, List.countP_eq_length_filter, ignoredInstructions, instructionsFrom,
    instructionsOf, List.filter_filter, List.drop_zero]
  refine congrArg List.length (List.filter_congr fun instruction _ => ?_)
  exact Bool.and_comm _ _

theorem nodup_ignoredInstructions : ((body.ignoredInstructions ranges).map Prod.snd).Nodup :=
  (nodup_places body 0).sublist (List.filter_sublist.map Prod.snd)

/-- The instructions of a body are counted once each. -/
theorem ignoredCount_eq_ncard : body.ignoredCount ranges = (body.ignored ranges).ncard := by
  have places : body.ignored ranges =
      ((body.ignoredInstructions ranges).map Prod.snd).toFinset := by
    ext index
    simp only [ignored, Set.mem_ofPred_eq, List.coe_toFinset, List.mem_map,
      mem_ignoredInstructions_iff, Prod.exists, exists_eq_right, mem_instructionsFrom, HasOpcode]
    simp
  rw [places, Set.ncard_coe_finset, List.toFinset_card_of_nodup nodup_ignoredInstructions,
    List.length_map, ignoredCount_eq_length]

/-- The order of the ranges does not count. -/
theorem ignoredCount_eq_of_perm {others : List IgnoreRange} (perm : ranges.Perm others) :
    body.ignoredCount ranges = body.ignoredCount others := by
  simp only [ignoredCount_eq_ncard, ignored, perm.mem_iff]

end Body

/-- The instructions that run in one of the ranges are ignored. -/
theorem Coroutine.RunsIn.subset {body : Body} {range : IgnoreRange} {run : List (Node × Nat)}
    (runs : RunsIn body range run) {ranges : List IgnoreRange} (found : range ∈ ranges) :
    run ⊆ body.ignoredInstructions ranges :=
  fun instruction mem => Body.mem_ignoredInstructions_iff.2
    ⟨runs.sublist.subset mem, range, found, runs.covered instruction mem⟩

/-- The dispatch and the fault of a state machine have fourteen instructions. -/
theorem Coroutine.fourteen_le_ignoredCount {body : Body} {ranges : List IgnoreRange}
    (recognized : stateMachine? body = some ranges) : 14 ≤ body.ignoredCount ranges := by
  obtain ⟨fault, found, dispatch, found', nine, five, runs, length, runs', length', apart⟩ :=
    exists_disjoint_runs recognized
  have distinct : (body.instructionsFrom 0).Nodup := (body.nodup_places 0).of_map
  have both : (nine ++ five).Nodup :=
    (distinct.sublist runs.sublist).append (distinct.sublist runs'.sublist) apart
  have inside : nine ++ five ⊆ body.ignoredInstructions ranges :=
    List.append_subset.2 ⟨runs.subset found', runs'.subset found⟩
  calc
    14 = (nine ++ five).length := by rw [List.length_append, length, length']
    _ ≤ (body.ignoredInstructions ranges).length := (both.subperm inside).length_le
    _ = body.ignoredCount ranges := Body.ignoredCount_eq_length.symm

/-! ## Reports -/

/-- The places of a state machine are not empty. -/
theorem Coroutine.ne_nil_of_stateMachine? {body : Body} {ranges : List IgnoreRange}
    (recognized : stateMachine? body = some ranges) : ranges ≠ [] := by
  rintro rfl
  obtain ⟨_, found, -⟩ := exists_disjoint_runs recognized
  exact absurd found List.not_mem_nil

/-- What the report of a method says about it, under a configuration. -/
structure Method.IsReportedAs (listing : ClassListing) (config : Config) (method : Method)
    (report : MethodReport) : Prop where
  name : report.name = method.name
  descriptor : report.descriptor = method.descriptor
  /-- A method has ranges if the filter is on and it is a suspending lambda that is recognized. -/
  found : report.ranges ≠ [] ↔ "KotlinCoroutine" ∉ config.disabledFilters ∧
    method.IsSuspendLambda listing ∧ (Coroutine.stateMachine? method.body).isSome
  /-- If it has any, it has all that the recognizer gives. -/
  all : report.ranges ≠ [] → ∃ ranges, Coroutine.stateMachine? method.body = some ranges ∧
    report.ranges.Perm ranges
  ascending : report.ranges.Pairwise fun a b =>
    a.first < b.first ∨ a.first = b.first ∧ a.last ≤ b.last
  counted : report.ignoredInstructions = (method.body.ignored report.ranges).ncard
  least : report.ranges ≠ [] → 14 ≤ report.ignoredInstructions

variable {listing : ClassListing} {config : Config} {filters : List Filter} {method : Method}

theorem IgnoreRange.pairwise_sort_lex (ranges : List IgnoreRange) :
    (sort ranges).Pairwise fun a b => a.first < b.first ∨ a.first = b.first ∧ a.last ≤ b.last :=
  (pairwise_sort ranges).imp fun le => by simpa [IgnoreRange.le] using le

/-- The report of a method, whatever filters are left. -/
theorem Method.isReportedAs_report (accepted : config.filters = .ok filters) :
    method.IsReportedAs listing config (method.report listing filters) := by
  have perm := IgnoreRange.perm_sort (method.foundRanges listing filters)
  have ascending := IgnoreRange.pairwise_sort_lex (method.foundRanges listing filters)
  rcases method.all_or_nothing listing accepted with ⟨applies, recognized⟩ | ⟨neither, none_found⟩
  · have some_found : IgnoreRange.sort (method.foundRanges listing filters) ≠ [] :=
      fun empty => Coroutine.ne_nil_of_stateMachine? recognized (empty ▸ perm).nil_eq.symm
    exact {
      name := rfl
      descriptor := rfl
      found := iff_of_true some_found ⟨applies.1, applies.2, by simp [recognized]⟩
      all := fun _ => ⟨_, recognized, perm⟩
      ascending := ascending
      counted := Body.ignoredCount_eq_ncard
      least := fun _ => (Coroutine.fourteen_le_ignoredCount recognized).trans_eq
        (Body.ignoredCount_eq_of_perm perm).symm }
  · have empty : IgnoreRange.sort (method.foundRanges listing filters) = [] := by
      rw [none_found] at perm ⊢
      exact perm.eq_nil
    exact {
      name := rfl
      descriptor := rfl
      found := iff_of_false (fun found => found empty) neither
      all := fun found => absurd empty found
      ascending := ascending
      counted := Body.ignoredCount_eq_ncard
      least := fun found => absurd empty found }

/-- Tasks for the methods give what looking at one after the other gives. -/
theorem ClassListing.rangesByMethod_eq (parallel : Bool) :
    listing.rangesByMethod filters parallel =
      listing.methods.map fun method => IgnoreRange.sort (method.foundRanges listing filters) := by
  cases parallel with
  | false => rfl
  | true =>
    simp only [rangesByMethod, if_true, List.map_map]
    rfl

/-- The report of a class is the same with and without tasks. -/
theorem ClassListing.analyze_eq_report :
    listing.analyze filters config = listing.report filters := by
  have paired : listing.methods.zip (listing.rangesByMethod filters config.parallel) =
      listing.methods.map fun method =>
        (method, IgnoreRange.sort (method.foundRanges listing filters)) := by
    rw [rangesByMethod_eq, ← List.zip_map', List.map_id']
  rw [analyze, paired, List.map_map]
  rfl

/-- Each method has its report in its place. -/
theorem ClassListing.forall₂_isReportedAs (accepted : config.filters = .ok filters) :
    List.Forall₂ (Method.IsReportedAs listing config) listing.methods
      (listing.analyze filters config).methods := by
  rw [analyze_eq_report, report, List.forall₂_map_right_iff, List.forall₂_same]
  exact fun _ _ => Method.isReportedAs_report accepted

/-- Under an accepted configuration, with and without tasks, the report of a class tells for each
    of its methods all or nothing, and counts each ignored instruction once. -/
theorem ClassListing.analyze_spec (accepted : config.filters = .ok filters) :
    let report := listing.analyze filters config
    report.className = listing.name ∧
      List.Forall₂ (Method.IsReportedAs listing config) listing.methods report.methods ∧
      report.ignoredCount = (report.methods.map MethodReport.ignoredInstructions).sum ∧
      report.rangeCount = (report.methods.map fun method => method.ranges.length).sum := by
  intro report
  refine ⟨rfl, forall₂_isReportedAs accepted, ?_, ?_⟩
  · rw [ClassReport.ignoredCount, List.sum, List.foldr_map]
  · rw [ClassReport.rangeCount, List.sum, List.foldr_map]

/-- Two methods with the same body, whose suspension points have ranges that overlap: only the one
    that is a suspending lambda has ranges. -/
theorem ClassListing.analyze_twins :
    let listing : ClassListing := ⟨"C", ["Lkotlin/Metadata;"],
      [⟨"invokeSuspend", "(ILkotlin/coroutines/Continuation;)V", Coroutine.twins⟩,
        ⟨"copy", "(ILkotlin/coroutines/Continuation;)V", Coroutine.twins⟩]⟩
    let config : Config := { parallel := true }
    config.filters = .ok [.kotlinCoroutine] ∧
      ∃ report report', (listing.analyze [.kotlinCoroutine] config).methods = [report, report'] ∧
        report.ranges.Perm [⟨34, 39⟩, ⟨4, 14⟩, ⟨15, 31⟩, ⟨16, 31⟩] ∧
        report.ignoredInstructions = 28 ∧ report'.name = "copy" ∧ report'.ranges = [] := by
  intro listing config
  have accepted : config.filters = .ok [.kotlinCoroutine] := by decide +kernel
  have recognized : Coroutine.stateMachine? Coroutine.twins =
      some [⟨34, 39⟩, ⟨4, 14⟩, ⟨15, 31⟩, ⟨16, 31⟩] := by decide +kernel
  have counted : Coroutine.twins.ignoredCount [⟨34, 39⟩, ⟨4, 14⟩, ⟨15, 31⟩, ⟨16, 31⟩] = 28 := by
    decide +kernel
  obtain ⟨-, reports, -, -⟩ := listing.analyze_spec accepted
  refine ⟨accepted, ?_⟩
  generalize (listing.analyze [.kotlinCoroutine] config).methods = methods at reports
  cases reports with
  | @cons _ report _ _ first others =>
    cases others with
    | @cons _ report' _ _ second none_left =>
      cases none_left
      have found : report.ranges ≠ [] := first.found.2 (by decide +kernel)
      obtain ⟨ranges, same, perm⟩ := first.all found
      obtain rfl : _ = ranges := Option.some.inj (recognized.symm.trans same)
      refine ⟨report, report', rfl, perm, ?_, second.name, ?_⟩
      · rw [first.counted, ← Body.ignoredCount_eq_ncard, Body.ignoredCount_eq_of_perm perm, counted]
      · exact not_not.1 (mt second.found.1 (by decide +kernel))

end BranchSieve
