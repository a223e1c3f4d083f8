import BranchSieve.Text.Split
import Mathlib.Data.List.Infix

/-!
# Where a text is cut

The cuts at a mark as statements about the parts: the first occurrence has no mark in front of it,
the last one none behind it, and an ending is there or not.
-/

namespace BranchSieve.Text

variable {mark : Char} {text before after : List Char}

theorem splitAt?_cons {separator : List Char} {c : Char}
    (h : ¬ separator <+: c :: text) :
    splitAt? separator (c :: text) =
      (splitAt? separator text).map fun (before, after) => (c :: before, after) := by
  rw [splitAt?, if_neg (by simpa using h)]

/-- A text is cut at the separator that is put in, if none starts in front of it. -/
theorem splitAt?_append {separator : List Char} (nonempty : separator ≠ [])
    (first : ¬ separator <:+: before ++ separator.dropLast) (after : List Char) :
    splitAt? separator (before ++ separator ++ after) = some (before, after) := by
  induction before with
  | nil =>
    obtain ⟨c, cs, rfl⟩ := List.exists_cons_of_ne_nil nonempty
    simp [splitAt?]
  | cons c before ih =>
    have later : ¬ separator <:+: before ++ separator.dropLast := fun inside =>
      first (inside.trans (List.infix_cons_iff.2 (.inr (List.infix_refl _))))
    have here : ¬ separator <+: c :: (before ++ separator ++ after) := by
      intro start
      refine first (List.IsPrefix.isInfix ?_)
      refine List.prefix_of_prefix_length_le start ?_ ?_
      · refine ⟨[separator.getLast nonempty] ++ after, ?_⟩
        have whole := List.dropLast_append_getLast nonempty
        rw [List.append_assoc, List.cons_append, ← List.append_assoc separator.dropLast, whole]
        simp
      · simp only [List.length_cons, List.length_append, List.length_dropLast, List.cons_append]
        omega
    rw [List.cons_append, List.cons_append, splitAt?_cons here, ih later]
    rfl

/-- No separator stands in front of the first one. -/
theorem not_infix_of_splitAt? {separator : List Char}
    (h : splitAt? separator text = some (before, after)) (nonempty : separator ≠ []) :
    ¬ separator <:+: before := by
  induction text generalizing before with
  | nil => simp [splitAt?, nonempty] at h
  | cons c text ih =>
    rw [splitAt?] at h
    split at h
    · obtain ⟨rfl, -⟩ := Prod.mk.inj (Option.some.inj h)
      simpa using nonempty
    · next apart =>
      obtain ⟨⟨front, back⟩, found, same⟩ := Option.map_eq_some_iff.1 h
      obtain ⟨rfl, rfl⟩ := Prod.mk.inj same
      rw [List.infix_cons_iff, not_or]
      refine ⟨fun start => apart (List.isPrefixOf_iff_prefix.2 ?_), ih found⟩
      rw [append_of_splitAt? found, List.append_assoc]
      exact start.trans (List.prefix_append (c :: front) _)

theorem splitAt?_singleton_eq_some_iff :
    splitAt? [mark] text = some (before, after) ↔
      text = before ++ mark :: after ∧ mark ∉ before := by
  constructor
  · intro h
    refine ⟨by simpa using append_of_splitAt? h, ?_⟩
    induction text generalizing before with
    | nil => simp [splitAt?] at h
    | cons c text ih =>
      by_cases here : mark = c
      · have start : ([mark].isPrefixOf (c :: text)) = true := by simp [here]
        rw [splitAt?, if_pos start, Option.some.injEq, Prod.mk.injEq] at h
        simp [← h.1]
      · rw [splitAt?_cons (by simpa using here)] at h
        obtain ⟨⟨front, back⟩, found, same⟩ := Option.map_eq_some_iff.1 h
        simp only [Prod.mk.injEq] at same
        obtain ⟨rfl, rfl⟩ := same
        simp [here, ih found]
  · intro given
    rcases given with ⟨rfl, first⟩
    have absent : ¬ [mark] <:+: before ++ [mark].dropLast := by
      intro inside
      exact first (by simpa using inside.subset (List.mem_singleton_self mark))
    simpa using splitAt?_append (List.cons_ne_nil mark []) absent after

theorem splitAtLast?_eq_some_iff :
    splitAtLast? mark text = some (before, after) ↔
      text = before ++ mark :: after ∧ mark ∉ after := by
  refine ⟨append_of_splitAtLast?, ?_⟩
  intro h
  rcases h with ⟨rfl, last⟩
  have behind : splitAtLast? mark after = none := by
    cases found : splitAtLast? mark after with
    | none => rfl
    | some parts =>
      obtain ⟨split, -⟩ := append_of_splitAtLast? found
      exact absurd (by simp [split]) last
  induction before with
  | nil => simp [splitAtLast?, behind]
  | cons c before ih => simp [splitAtLast?, ih]

theorem beforeEnding?_eq_some_iff {ending : List Char} :
    beforeEnding? ending text = some before ↔ text = before ++ ending := by
  refine ⟨append_of_beforeEnding?, ?_⟩
  intro same
  subst same
  simp [beforeEnding?]

theorem beforeEnding?_eq_none_iff {ending : List Char} :
    beforeEnding? ending text = none ↔ ¬ ending <:+ text := by
  simp [beforeEnding?]

end BranchSieve.Text
