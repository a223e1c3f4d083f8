import BranchSieve.Proofs.Text.Words
import BranchSieve.Text.Lines
import Mathlib.Data.List.Basic

/-!
# Lines put together

A text of ended lines has just these lines, and a line that is put together from a first word and a
rest is split there again, whatever its indentation.
-/

namespace BranchSieve.Text

variable {lines : List (List Char)} {line keyword operands indent text : List Char}

/-- A line that is left as it is when it is ended and read again. -/
def IsPlainLine (line : List Char) : Prop := '\n' ∉ line ∧ line.getLast? ≠ some '\r'

/-- The text of some lines, each with its line end. -/
def endLines (lines : List (List Char)) : List Char := lines.flatMap (· ++ ['\n'])

theorem endLines_append (front back : List (List Char)) :
    endLines (front ++ back) = endLines front ++ endLines back :=
  List.flatMap_append

theorem endLines_cons (line : List Char) (lines : List (List Char)) :
    endLines (line :: lines) = line ++ '\n' :: endLines lines := by
  simp [endLines]

/-- Each line but the first starts behind the end of the line before it. -/
theorem endLines_cons_eq_flatMap (first : List Char) (others : List (List Char)) :
    endLines (first :: others) = first ++ others.flatMap ('\n' :: ·) ++ ['\n'] := by
  induction others generalizing first with
  | nil => simp [endLines]
  | cons next others ih =>
    calc endLines (first :: next :: others) = first ++ '\n' :: endLines (next :: others) :=
          endLines_cons first (next :: others)
      _ = first ++ (next :: others).flatMap ('\n' :: ·) ++ ['\n'] := by simp [ih next]

theorem unend_of_isPlainLine (h : IsPlainLine line) : unend line = line := by
  have same : unendReversed line.reverse = line.reverse := by
    unfold unendReversed
    split
    · next front reversed =>
      refine absurd ?_ h.2
      rw [List.getLast?_eq_head?_reverse, reversed, List.head?_cons]
    · rfl
  rw [unend, same, List.reverse_reverse]

theorem lines_endLines (h : ∀ line ∈ lines, IsPlainLine line) :
    Text.lines (endLines lines) = lines := by
  induction lines with
  | nil => rfl
  | cons line lines ih =>
    obtain ⟨plain, others⟩ := List.forall_mem_cons.1 h
    rw [endLines_cons, lines_append_newline _ _ plain.1, unend_of_isPlainLine plain, ih others]

/-- A line goes on over the end of a text that is not ended. -/
theorem linesFrom_append_ended (current front back : List Char) :
    linesFrom current (front ++ '\n' :: back) =
      linesFrom current (front ++ ['\n']) ++ Text.lines back := by
  induction front generalizing current with
  | nil => simp [linesFrom, Text.lines]
  | cons c front ih => simp only [List.cons_append, linesFrom, ih]; split <;> rfl

/-- The lines of a text behind an ended one come behind its lines. -/
theorem lines_append {front : List Char} (ended : front.getLast? = some '\n') (back : List Char) :
    Text.lines (front ++ back) = Text.lines front ++ Text.lines back := by
  obtain ⟨front, rfl⟩ := List.getLast?_eq_some_iff.1 ended
  rw [List.append_assoc]
  exact linesFrom_append_ended [] front back

/-- A text is a first word, with a blank and a rest behind it or alone. -/
def Joins (keyword operands text : List Char) : Prop :=
  text = keyword ++ ' ' :: operands ∨ operands = [] ∧ text = keyword

theorem trim_append_blank (h : IsTrimmed line) (nonempty : line ≠ []) :
    trim (line ++ [' ']) = line := by
  obtain ⟨c, cs, rfl⟩ := List.exists_cons_of_ne_nil nonempty
  have first : isBlank c = false := h.1 c rfl
  have untouched : trimLeft (c :: cs ++ [' ']) = c :: cs ++ [' '] := by
    simp [trimLeft, first]
  have whole := trim_of_isTrimmed h
  rw [trim, trimLeft_of_isTrimmed h] at whole
  rw [trim, untouched, trimRight, List.reverse_append, List.reverse_singleton,
    List.singleton_append, List.dropWhile_cons_of_pos rfl]
  exact whole

/-- A line is split behind its first word. -/
theorem splitFirst_trim (blank : ∀ c ∈ indent, isBlank c = true) (word : IsWord keyword)
    (rest : IsTrimmed operands) (joins : Joins keyword operands text) :
    splitFirst (trim (indent ++ text)) = (keyword, operands) := by
  rw [trim_append_of_blank blank]
  by_cases bare : operands = []
  · have trimmed : trim text = keyword := by
      rcases joins with rfl | ⟨-, rfl⟩
      · rw [bare]
        exact trim_append_blank word.isTrimmed word.1
      · exact trim_of_isTrimmed word.isTrimmed
    rw [trimmed, splitFirst_of_word word.2, bare]
  · rcases joins with rfl | ⟨empty, -⟩
    · have trimmed : IsTrimmed (keyword ++ ' ' :: operands) := by
        simpa using word.isTrimmed.append word.1 rest bare [' ']
      rw [trim_of_isTrimmed trimmed, splitFirst_append word.2 rfl, trim_of_isTrimmed rest]
    · exact absurd empty bare

theorem isPlainLine_append (blank : ∀ c ∈ indent, c = ' ') (word : IsWord keyword)
    (rest : IsLineRest operands) (joins : Joins keyword operands text) :
    IsPlainLine (indent ++ text) := by
  have noFeed : '\n' ∉ indent := fun mem => absurd (blank _ mem) (by decide)
  rcases joins with rfl | ⟨-, rfl⟩
  · refine ⟨?_, ?_⟩
    · simp only [List.mem_append, List.mem_cons, not_or]
      exact ⟨noFeed, word.isLineRest.2, by decide, rest.2⟩
    · intro last
      rw [List.getLast?_append, List.getLast?_append, List.getLast?_cons] at last
      cases shown : operands.getLast? with
      | none => simp [shown] at last
      | some c =>
        have notBlank : isBlank c = false := rest.1.2 c shown
        obtain rfl : c = '\r' := by simpa [shown] using last
        exact absurd notBlank (by decide)
  · refine ⟨?_, ?_⟩
    · rw [List.mem_append, not_or]
      exact ⟨noFeed, word.isLineRest.2⟩
    · intro last
      rw [List.getLast?_append_of_ne_nil _ word.1] at last
      have notBlank : isBlank '\r' = false := word.isTrimmed.2 _ last
      exact absurd notBlank (by decide)

theorem unendReversed_subset (line : List Char) : unendReversed line ⊆ line := by
  unfold unendReversed
  split
  · exact List.subset_cons_self _ _
  · exact List.Subset.refl _

theorem newline_not_mem_of_mem_linesFrom {current : List Char} (free : '\n' ∉ current)
    (mem : line ∈ linesFrom current text) : '\n' ∉ line := by
  induction text generalizing current with
  | nil =>
    rw [linesFrom] at mem
    split at mem
    · simp at mem
    · rw [List.mem_singleton.1 mem, List.mem_reverse]
      exact free
  | cons c cs ih =>
    rw [linesFrom] at mem
    split at mem
    · rcases List.mem_cons.1 mem with rfl | mem
      · rw [List.mem_reverse]
        exact fun feed => free (unendReversed_subset _ feed)
      · exact ih List.not_mem_nil mem
    · next other => exact ih (List.not_mem_cons_of_ne_of_not_mem (Ne.symm other) free) mem

/-- A line holds no line feed. -/
theorem newline_not_mem_of_mem_lines (mem : line ∈ Text.lines text) : '\n' ∉ line :=
  newline_not_mem_of_mem_linesFrom List.not_mem_nil mem

/-! ## The first lines of a text -/

/-- The first lines of a text as they stand there, with their line ends. -/
def takeLines : Nat → List Char → List Char
  | 0, _ => []
  | _ + 1, [] => []
  | count + 1, c :: cs =>
    if c = '\n' then c :: takeLines count cs else c :: takeLines (count + 1) cs

theorem linesFrom_takeLines (count : Nat) (text current : List Char)
    (h : count = 0 → current = []) :
    linesFrom current (takeLines count text) = (linesFrom current text).take count := by
  fun_induction takeLines count text generalizing current with
  | case1 => rw [h rfl, linesFrom, List.take_zero, List.isEmpty_nil, if_pos rfl]
  | case2 count =>
    rw [linesFrom]
    split <;> simp
  | case3 count cs ih =>
    rw [linesFrom, if_pos rfl, linesFrom, if_pos rfl, List.take_succ_cons, ih [] fun _ => rfl]
  | case4 count c cs other ih =>
    rw [linesFrom, if_neg other, linesFrom, if_neg other,
      ih (c :: current) (absurd · count.succ_ne_zero)]

/-- The lines of the first lines of a text are the first lines. -/
theorem lines_takeLines (count : Nat) (text : List Char) :
    Text.lines (takeLines count text) = (Text.lines text).take count :=
  linesFrom_takeLines count text [] fun _ => rfl

end BranchSieve.Text
