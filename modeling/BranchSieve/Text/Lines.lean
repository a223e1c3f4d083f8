/-!
# Lines of a text

A line ends at a line feed, and one carriage return in front of the line feed belongs to the line
end. What follows the last line feed is a line of its own if there is anything; such a line keeps
its carriage return. The lemma says that a text in which every line is ended has just these lines.
-/

namespace BranchSieve.Text

/-- A line that was read backwards, without the carriage return of its line end. -/
def unendReversed : List Char → List Char
  | '\r' :: line => line
  | line => line

/-- The lines of a text whose first line already has the characters of `current`, read
    backwards. -/
def linesFrom (current : List Char) : List Char → List (List Char)
  | [] => if current.isEmpty then [] else [current.reverse]
  | c :: cs =>
    if c = '\n' then (unendReversed current).reverse :: linesFrom [] cs
    else linesFrom (c :: current) cs

/-- The lines of a text, without their line ends. -/
def lines (text : List Char) : List (List Char) :=
  linesFrom [] text

/-- A line without its carriage return, if it ends with one. -/
def unend (line : List Char) : List Char :=
  (unendReversed line.reverse).reverse

theorem linesFrom_append_newline (current line rest : List Char) (h : '\n' ∉ line) :
    linesFrom current (line ++ '\n' :: rest)
      = (unendReversed (line.reverse ++ current)).reverse :: lines rest := by
  induction line generalizing current with
  | nil => simp [linesFrom, lines]
  | cons c cs ih =>
    obtain ⟨hc, hcs⟩ := List.ne_and_not_mem_of_not_mem_cons h
    simp [linesFrom, hc.symm, ih (c :: current) hcs]

/-- The characters up to the first line feed are the first line. -/
theorem lines_append_newline (line rest : List Char) (h : '\n' ∉ line) :
    lines (line ++ '\n' :: rest) = unend line :: lines rest := by
  simp [lines, unend, linesFrom_append_newline _ _ _ h]

end BranchSieve.Text
