/-!
# Binary floating point formats

The bits of a floating point number are its sign and its pattern, the number that the other bits
spell. Patterns grow with the magnitude they stand for: first the finite ones, then infinity, then
the patterns of NaN. Each finite magnitude is a whole number of units, the format's least positive
magnitude, and `BinaryFormat.units` says how many. `BinaryFormat.nearest` rounds a quotient of units
to the nearest pattern, half way to the even one, and `BinaryFormat.ofDecimal` does so with a
decimal number of any size: bounds on the exponent decide without arithmetic what is too large or
too small.
-/

namespace BranchSieve

/-- The decimal number `digits · 10 ^ exponent`. -/
structure Decimal where
  /-- The digits, read as one number. -/
  digits : Nat
  /-- The power of ten that they count. -/
  exponent : Int
  deriving DecidableEq, Repr

/-- The widths of a binary floating point format. -/
structure BinaryFormat where
  /-- The number of significant bits, the hidden one included. -/
  precision : Nat
  /-- The number of bits of the exponent. -/
  exponentBits : Nat
  deriving DecidableEq, Repr

namespace BinaryFormat

/-- The format of 32 bits. -/
def single : BinaryFormat := ⟨24, 8⟩

/-- The format of 64 bits. -/
def double : BinaryFormat := ⟨53, 11⟩

/-- The number of patterns that share an exponent. -/
def binade (f : BinaryFormat) : Nat := Nat.pow 2 (f.precision - 1)

/-- The pattern of infinity. -/
def infinity (f : BinaryFormat) : Nat := (Nat.pow 2 f.exponentBits - 1) * f.binade

/-- The pattern of the NaN that a reader makes. -/
def nan (f : BinaryFormat) : Nat := f.infinity + f.binade / 2

/-- The weight of the sign bit. -/
def signBit (f : BinaryFormat) : Nat := Nat.pow 2 f.exponentBits * f.binade

/-- The exponent of two that no finite magnitude reaches. -/
def overflowExponent (f : BinaryFormat) : Nat := Nat.pow 2 (f.exponentBits - 1)

/-- The unit of the format is `2 ^ (-unitExponent)`. -/
def unitExponent (f : BinaryFormat) : Nat := f.overflowExponent + f.precision - 3

/-- The number of units in the magnitude of a finite pattern. -/
def units (f : BinaryFormat) (pattern : Nat) : Nat :=
  let exponent := pattern / f.binade
  let fraction := pattern % f.binade
  if exponent = 0 then fraction else (f.binade + fraction) * Nat.pow 2 (exponent - 1)

/-- Is the sign bit set? -/
def isNegative (f : BinaryFormat) (bits : Nat) : Bool := f.signBit ≤ bits

/-- The bits without the sign. -/
def pattern (f : BinaryFormat) (bits : Nat) : Nat := bits % f.signBit

/-- The bits of a pattern with a sign. -/
def withSign (f : BinaryFormat) (negative : Bool) (pattern : Nat) : Nat :=
  if negative then f.signBit + pattern else pattern

/-- Do the bits stand for no number? -/
def isNaN (f : BinaryFormat) (bits : Nat) : Bool := f.infinity < f.pattern bits

/-- Equality of the numbers that the bits stand for: NaN differs from all, and the zeros are
    equal. -/
def sameNumber (f : BinaryFormat) (a b : Nat) : Bool :=
  !f.isNaN a && !f.isNaN b && (a == b || (f.pattern a == 0 && f.pattern b == 0))

/-- The whole number nearest to a quotient; half way lies the even one. -/
def roundHalfEven (num den : Nat) : Nat :=
  let quotient := num / den
  let remainder := num % den
  if 2 * remainder < den ∨ (2 * remainder = den ∧ quotient % 2 = 0) then quotient
  else quotient + 1

/-- The pattern nearest to a quotient of units. The quotient keeps `precision` bits, so it is
    rounded as a multiple of `2 ^ shift`, and a carry out of the top bit counts on into the next
    exponent. -/
def nearest (f : BinaryFormat) (num den : Nat) : Nat :=
  let shift := (num / den).log2 + 1 - f.precision
  min f.infinity (shift * f.binade + roundHalfEven num (den * Nat.pow 2 shift))

/-- The pattern nearest to a decimal number. A power of ten exceeds that power of two, and its
    reciprocal is below that of two, which settles the exponents far out. -/
def ofDecimal (f : BinaryFormat) (d : Decimal) : Nat :=
  if d.digits = 0 then 0
  else if f.overflowExponent ≤ d.exponent then f.infinity
  else if d.digits.log2 + 1 + d.exponent < -f.unitExponent then 0
  else
    nearest f (d.digits * Nat.pow 10 d.exponent.toNat * Nat.pow 2 f.unitExponent)
      (Nat.pow 10 (-d.exponent).toNat)

end BinaryFormat

end BranchSieve
