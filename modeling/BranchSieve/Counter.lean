/-!
# Counters of 32 bits

The keys of a table are counted up by a counter of 32 bits, when a table is read and when it is
printed. What comes behind the greatest number of such a counter depends on how the program is
built: the counter goes on at the least number, or it stops the program. Keys that do not come near
the greatest number do not tell the two apart, nor from a counter that simply ends, as the keys of a
table do. That one is meant where nothing else is said.
-/

namespace BranchSieve

/-- What a counter does behind its greatest number. -/
inductive Overflow where
  /-- No number comes behind the greatest one. -/
  | ends
  /-- The least number comes behind the greatest one. -/
  | wraps
  /-- The program stops. The counter is moved on before its number is used, so that the greatest
      number is not used either. -/
  | stops
  deriving DecidableEq, Repr

attribute [class] Overflow

instance : Overflow := .ends

namespace Overflow

variable [overflow : Overflow]

/-- The number that comes behind another one. -/
def next? (number : Int32) : Option Int32 :=
  if number = Int32.maxValue then if overflow = .wraps then some Int32.minValue else none
  else some (number + 1)

/-- Does the program stop where the number is due? -/
def stopsAt (number : Int32) : Bool := overflow = .stops && number = Int32.maxValue

theorem stopsAt_eq_true_iff {number : Int32} :
    stopsAt number = true ↔ overflow = .stops ∧ number = Int32.maxValue := by
  simp [stopsAt]

end Overflow

/-- Below the greatest number, the sum is the one of integers. -/
theorem toInt_add_one {number : Int32} (below : number.toInt < Int32.maxValue.toInt) :
    (number + 1).toInt = number.toInt + 1 := by
  have lower := number.minValue_le_toInt
  have min : Int32.minValue.toInt = -2147483648 := by decide
  have max : Int32.maxValue.toInt = 2147483647 := by decide
  have one : (1 : Int32).toInt = 1 := by decide
  rw [Int32.toInt_add, one, Int.bmod_eq_of_le] <;> omega

end BranchSieve
