import BranchSieve.Proofs.Coroutine.Scan

/-!
# Where a resumption is checked

The scan for the check in front of a continuation goes forward and tries every index, and because of
markers it may succeed from several of them. Looking back from the continuation there is no choice:
the last instruction in front of it has to be the reload of the result, and the eight in front of
that the check. The scan finds this reload if the check stands behind its start as a whole, and
nothing otherwise, whatever place and bindings its matcher has.
-/

namespace BranchSieve

namespace Coroutine

/-- Looking back from `continuation`, the last instruction is the reload of the result, at `last`,
    and the eight in front of it are a check of the result, which starts behind `first`. -/
def LooksBackTo (body : Body) (first continuation last : Nat) : Prop :=
  ∃ earlier load start check reload,
    body.instructionsBetween 0 continuation =
      earlier ++ (load, start) :: check ++ [(reload, last)] ∧
    IsResultCheck (load :: check.map Prod.fst) ∧ reload.opcode? = some .aload ∧ first < start

variable {body : Body} {first continuation last : Nat}

/-- The check stands behind an index as a whole if its first instruction does. -/
theorem reloadsBefore_iff_looksBackTo :
    ReloadsBefore body first continuation last ↔
      body.HasOpcode continuation ∧ LooksBackTo body first continuation last := by
  constructor
  · intro reloads
    have lt := reloads.lt
    obtain ⟨there, before, check, reload, split, isCheck, isLoad⟩ := reloads
    refine ⟨there, ?_⟩
    cases check with
    | nil => exact absurd isCheck.length_eq (by simp)
    | cons opening check =>
      rcases opening with ⟨load, start⟩
      have mem : (load, start) ∈ body.instructionsBetween (first + 1) continuation := by
        simp [split]
      refine ⟨body.instructionsBetween 0 (first + 1) ++ before, load, start, check, reload, ?_,
        isCheck, isLoad, (Body.bounds_of_mem_instructionsBetween mem).1⟩
      rw [Body.instructionsBetween_append (Nat.zero_le (first + 1)) lt, split]
      simp
  · rintro ⟨there, earlier, load, start, check, reload, split, isCheck, isLoad, behind⟩
    have cut : body.instructionsBetween 0 continuation =
        earlier ++ (load, start) :: (check ++ [(reload, last)]) := by simpa using split
    have mem : (load, start) ∈ body.instructionsBetween 0 continuation := by simp [cut]
    have before := (Body.bounds_of_mem_instructionsBetween mem).2
    refine ⟨there, body.instructionsBetween (first + 1) start, (load, start) :: check, reload, ?_,
      isCheck, isLoad⟩
    rw [Body.instructionsBetween_append behind (Nat.le_of_lt before),
      (Body.instructionsBetween_of_cons cut).2]
    simp

/-- The scan finds what looking back from the continuation finds. Neither the place and the bindings
    of its matcher nor the index from which it succeeds make a difference. -/
theorem findResumedEnd?_eq_some_iff_looksBackTo (m : Matcher) (first continuation : Nat) :
    (∀ last, findResumedEnd? m first continuation = some last ↔
      m.body.HasOpcode continuation ∧ LooksBackTo m.body first continuation last) ∧
    (findResumedEnd? m first continuation = none ↔
      ¬ (m.body.HasOpcode continuation ∧ ∃ last, LooksBackTo m.body first continuation last)) ∧
    (∀ cursor bindings, findResumedEnd? { m with cursor, bindings } first continuation =
      findResumedEnd? m first continuation) ∧
    ∀ index last, first ≤ index → resumedEnd? m continuation index = some last →
      findResumedEnd? m first continuation = some last := by
  have found : ∀ last, findResumedEnd? m first continuation = some last ↔
      m.body.HasOpcode continuation ∧ LooksBackTo m.body first continuation last :=
    fun last => findResumedEnd?_eq_some_iff.trans reloadsBefore_iff_looksBackTo
  refine ⟨found, ?_, ?_, ?_⟩
  · rw [Option.eq_none_iff_forall_not_mem]
    simp only [Option.mem_def, found, not_and, not_exists]
    exact forall_comm
  · intro cursor bindings
    ext last
    rw [findResumedEnd?_eq_some_iff, findResumedEnd?_eq_some_iff]
  · intro index last ge hit
    exact findResumedEnd?_eq_some_iff.2 ((reloadsBefore_of_resumedEnd? hit).mono ge)

/-- The check behind the comparison of the twins is found from the return of the marker, from the
    label in front of the check, and so by the scan; not from the first instruction of the check
    on. -/
theorem findResumedEnd?_twins :
    let m := (Matcher.start twins).moveTo 4
    (15 ≤ 20 ∧ resumedEnd? m 33 20 = some 31 ∧ 15 ≤ 21 ∧ resumedEnd? m 33 21 = some 31) ∧
      findResumedEnd? m 15 33 = some 31 ∧ LooksBackTo twins 15 33 31 ∧
      findResumedEnd? { m with cursor := .noMatch, bindings := [("a", 7)] } 15 33 = some 31 ∧
      ¬ ∃ last, LooksBackTo twins 22 33 last := by
  intro m
  have fromReturn : resumedEnd? m 33 20 = some 31 := by decide +kernel
  have fromLabel : resumedEnd? m 33 21 = some 31 := by decide +kernel
  obtain ⟨looksBack, -, alike, anyIndex⟩ := findResumedEnd?_eq_some_iff_looksBackTo m 15 33
  obtain ⟨-, missed, -⟩ := findResumedEnd?_eq_some_iff_looksBackTo m 22 33
  have hit := anyIndex 21 31 (by decide) fromLabel
  obtain ⟨opcode, back⟩ := (looksBack 31).1 hit
  refine ⟨⟨by decide, fromReturn, by decide, fromLabel⟩, hit, back, ?_, ?_⟩
  · rw [alike, hit]
  · intro found
    exact missed.1 (by decide +kernel) ⟨opcode, found⟩

end Coroutine

end BranchSieve
