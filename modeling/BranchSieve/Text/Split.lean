/-!
# Cutting a text at a mark

`splitAt?` cuts at the first occurrence of a separator, `splitAtLast?` at the last occurrence of
a character, and `beforeEnding?` takes an ending off. Each gives nothing if there is no such
place. The lemmas say that nothing but the mark is lost.
-/

namespace BranchSieve.Text

/-- The texts before and after the first occurrence of the separator. -/
def splitAt? (separator : List Char) : List Char → Option (List Char × List Char)
  | [] => if separator.isEmpty then some ([], []) else none
  | c :: cs =>
    if separator.isPrefixOf (c :: cs) then some ([], (c :: cs).drop separator.length)
    else (splitAt? separator cs).map fun (before, after) => (c :: before, after)

/-- The texts before and after the last occurrence of the character. -/
def splitAtLast? (mark : Char) : List Char → Option (List Char × List Char)
  | [] => none
  | c :: cs =>
    match splitAtLast? mark cs with
    | some (before, after) => some (c :: before, after)
    | none => if c = mark then some ([], cs) else none

/-- The text in front of the given ending. -/
def beforeEnding? (ending text : List Char) : Option (List Char) :=
  if ending.isSuffixOf text then some (text.take (text.length - ending.length)) else none

theorem append_of_splitAt? {separator text before after : List Char}
    (h : splitAt? separator text = some (before, after)) :
    text = before ++ separator ++ after := by
  induction text generalizing before with
  | nil =>
    simp only [splitAt?, Option.ite_none_right_eq_some, Option.some.injEq, Prod.mk.injEq,
      List.isEmpty_iff] at h
    obtain ⟨rfl, rfl, rfl⟩ := h
    rfl
  | cons c cs ih =>
    rw [splitAt?] at h
    split at h
    · next isStart =>
      obtain ⟨rest, eq⟩ := List.isPrefixOf_iff_prefix.1 isStart
      simp only [Option.some.injEq, Prod.mk.injEq] at h
      obtain ⟨rfl, rfl⟩ := h
      simp [← eq]
    · obtain ⟨⟨before', after'⟩, eq, same⟩ := Option.map_eq_some_iff.1 h
      simp only [Prod.mk.injEq] at same
      obtain ⟨rfl, rfl⟩ := same
      simp [ih eq]

/-- A text with the mark in it is cut somewhere. -/
theorem splitAtLast?_ne_none {mark : Char} {cs : List Char} (h : mark ∈ cs) :
    splitAtLast? mark cs ≠ none := by
  induction cs with
  | nil => simp at h
  | cons c cs ih =>
    rw [splitAtLast?]
    split
    · simp
    · next eq =>
      rcases List.mem_cons.1 h with rfl | h
      · simp
      · exact absurd eq (ih h)

theorem append_of_splitAtLast? {mark : Char} {text before after : List Char}
    (h : splitAtLast? mark text = some (before, after)) :
    text = before ++ mark :: after ∧ mark ∉ after := by
  induction text generalizing before with
  | nil => simp [splitAtLast?] at h
  | cons c cs ih =>
    rw [splitAtLast?] at h
    split at h
    · next before' after' eq =>
      simp only [Option.some.injEq, Prod.mk.injEq] at h
      obtain ⟨rfl, rfl⟩ := h
      simpa using ih eq
    · next eq =>
      simp only [Option.ite_none_right_eq_some, Option.some.injEq, Prod.mk.injEq] at h
      obtain ⟨rfl, rfl, rfl⟩ := h
      exact ⟨rfl, fun mem => splitAtLast?_ne_none mem eq⟩

theorem append_of_beforeEnding? {ending text before : List Char}
    (h : beforeEnding? ending text = some before) : text = before ++ ending := by
  simp only [beforeEnding?, Option.ite_none_right_eq_some, Option.some.injEq] at h
  obtain ⟨isEnd, rfl⟩ := h
  obtain ⟨start, rfl⟩ := List.isSuffixOf_iff_suffix.1 isEnd
  simp

end BranchSieve.Text
