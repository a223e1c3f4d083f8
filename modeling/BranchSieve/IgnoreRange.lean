/-!
# Ranges of ignored instructions

A range names the first and the last index of the instructions that coverage leaves out. Ranges
are ordered by their first index and then by their last one.
-/

namespace BranchSieve

/-- The indices from `first` to `last`, both included. -/
structure IgnoreRange where
  first : Nat
  last : Nat
  deriving DecidableEq, Repr

namespace IgnoreRange

/-- Does the index lie in the range? -/
def contains (range : IgnoreRange) (index : Nat) : Bool :=
  range.first ≤ index && index ≤ range.last

/-- The order of ranges. -/
def le (a b : IgnoreRange) : Bool :=
  a.first < b.first || (a.first == b.first && a.last ≤ b.last)

/-- The ranges in ascending order. -/
def sort (ranges : List IgnoreRange) : List IgnoreRange :=
  ranges.mergeSort le

/-- The text of a range. -/
def render (range : IgnoreRange) : String :=
  s!"{range.first}..={range.last}"

theorem le_trans (a b c : IgnoreRange) (ab : a.le b = true) (bc : b.le c = true) :
    a.le c = true := by
  simp only [le, Bool.or_eq_true, decide_eq_true_eq, Bool.and_eq_true, beq_iff_eq] at *
  omega

theorem le_total (a b : IgnoreRange) : (a.le b || b.le a) = true := by
  simp only [le, Bool.or_eq_true, decide_eq_true_eq, Bool.and_eq_true, beq_iff_eq]
  omega

theorem perm_sort (ranges : List IgnoreRange) : (sort ranges).Perm ranges :=
  List.mergeSort_perm ranges le

theorem pairwise_sort (ranges : List IgnoreRange) :
    (sort ranges).Pairwise (fun a b => a.le b = true) :=
  List.pairwise_mergeSort le_trans le_total ranges

end IgnoreRange

end BranchSieve
