import BranchSieve.Decimal.Binary

/-!
# Shortest decimal numbers

The shortest decimal number of a finite pattern has the fewest digits among those that read back as
the pattern. It is looked for on the grids of the multiples of a power of ten, from the coarsest
grid to ever finer ones. A grid has a point that reads back only if one of the two neighbours of
the value does; of two such neighbours the nearer is taken, and half way between them the larger.
The search ends at the latest on the grid of the format's own unit, where the value itself lies.
-/

namespace BranchSieve

/-- The same number without zeros at the end of its digits. -/
def Decimal.trim (d : Decimal) : Decimal :=
  if d.digits ≠ 0 ∧ d.digits % 10 = 0 then Decimal.trim ⟨d.digits / 10, d.exponent + 1⟩ else d
termination_by d.digits
decreasing_by exact Nat.div_lt_self (by omega) (by decide)

namespace BinaryFormat

/-- The numerator and the denominator of `units` units over `10 ^ grid`. -/
def overGrid (f : BinaryFormat) (units : Nat) (grid : Int) : Nat × Nat :=
  (units * Nat.pow 10 (-grid).toNat, Nat.pow 2 f.unitExponent * Nat.pow 10 grid.toNat)

/-- The point of a grid that stands for the pattern, if there is one: a neighbour of the value that
    reads back. -/
def gridPoint? (f : BinaryFormat) (pattern : Nat) (grid : Int) : Option Decimal :=
  let (num, den) := f.overGrid (f.units pattern) grid
  let below : Decimal := ⟨num / den, grid⟩
  let above : Decimal := ⟨num / den + 1, grid⟩
  let readsBelow := f.ofDecimal below == pattern
  let readsAbove := f.ofDecimal above == pattern
  if readsBelow && (2 * (num % den) < den || !readsAbove) then some below
  else if readsAbove then some above
  else none

/-- The grid point of the first grid that has one, among `grid` and the `finer` grids after it.
    The last grid counts as exact. -/
def shortestFrom (f : BinaryFormat) (pattern : Nat) : Nat → Int → Decimal
  | 0, grid =>
    let (num, den) := f.overGrid (f.units pattern) grid
    ⟨num / den, grid⟩
  | finer + 1, grid =>
    match f.gridPoint? pattern grid with
    | some d => d
    | none => shortestFrom f pattern finer (grid - 1)

/-- A grid whose first positive point exceeds the pattern's value. It rests on `2 ^ 3 < 10` for
    values above one and on `10 ^ 3 < 2 ^ 10` for values below. -/
def coarsestGrid (f : BinaryFormat) (pattern : Nat) : Int :=
  let bound : Int := (f.units pattern).log2 + 1 - f.unitExponent
  if 0 ≤ bound then bound / 3 + 1 else -(-bound * 3 / 10)

/-- The shortest decimal number that reads back as a finite pattern. -/
def shortest (f : BinaryFormat) (pattern : Nat) : Decimal :=
  if pattern = 0 then ⟨0, 0⟩
  else
    let grid := f.coarsestGrid pattern
    (f.shortestFrom pattern (grid + f.unitExponent).toNat grid).trim

end BinaryFormat

end BranchSieve
