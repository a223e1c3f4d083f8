/-!
# Code points of JSON strings

A string is a sequence of code points. Most are characters, but an escape may also name one half of
a pair of UTF-16 units without the other, and such a half is no character. `CodePoint.text?` gives
the text of a sequence, which exists exactly if every code point is a character.
-/

namespace BranchSieve

/-- What is read from the written form of each element is the element again. -/
theorem mapM_map_eq_some {α β : Type} {read? : β → Option α} {write : α → β}
    (back : ∀ a, read? (write a) = some a) (list : List α) :
    (list.map write).mapM read? = some list := by
  induction list with
  | nil => rfl
  | cons a list ih => simp [back, ih]

/-- A code point of a string. -/
inductive CodePoint where
  | char (c : Char)
  /-- Half of a pair of UTF-16 units whose other half is missing. -/
  | surrogate (unit : Nat)
  deriving DecidableEq, Repr

namespace CodePoint

/-- The character that a code point is. -/
def char? : CodePoint → Option Char
  | .char c => some c
  | .surrogate _ => none

/-- The code points of a text. -/
def ofString (text : String) : List CodePoint := text.toList.map .char

/-- The text of some code points. -/
def text? (points : List CodePoint) : Option String :=
  (points.mapM char?).map String.ofList

@[simp]
theorem text?_ofString (text : String) : text? (ofString text) = some text := by
  have back : ∀ c, char? (.char c) = some c := fun _ => rfl
  rw [text?, ofString, mapM_map_eq_some back, Option.map_some, String.ofList_toList]

end CodePoint

end BranchSieve
