import BranchSieve.Decimal.Binary
import Mathlib.Algebra.Order.Ring.Nat
import Mathlib.Tactic.Ring

/-!
# Rounding decimal numbers

Rounding depends on the value of a quotient, and a finite pattern is what its own units round to.
The bounds on the exponent of a decimal number settle what rounding would settle too, so the
pattern of a decimal number depends on its value only, whatever digits and exponent spell it.
-/

namespace BranchSieve.BinaryFormat

variable {f : BinaryFormat} {num den num' den' : Nat}

/-- Fractions are not reduced before they are rounded. -/
theorem roundHalfEven_mul_right {k : Nat} (positive : 0 < k) :
    roundHalfEven (num * k) (den * k) = roundHalfEven num den := by
  have below : 2 * (num % den * k) < den * k ↔ 2 * (num % den) < den := by
    rw [← Nat.mul_assoc, Nat.mul_lt_mul_right positive]
  have half : 2 * (num % den * k) = den * k ↔ 2 * (num % den) = den := by
    rw [← Nat.mul_assoc, Nat.mul_right_cancel_iff positive]
  simp only [roundHalfEven, Nat.mul_div_mul_right _ _ positive, Nat.mul_mod_mul_right, below, half]

theorem roundHalfEven_of_lt (small : 2 * num < den) : roundHalfEven num den = 0 := by
  have less : num < den := by omega
  simp [roundHalfEven, Nat.div_eq_of_lt less, Nat.mod_eq_of_lt less, small]

theorem roundHalfEven_mul_self (whole : Nat) (positive : 0 < den) :
    roundHalfEven (whole * den) den = whole := by
  simp [roundHalfEven, Nat.mul_div_cancel whole positive, positive]

theorem nearest_mul_right {k : Nat} (positive : 0 < k) :
    f.nearest (num * k) (den * k) = f.nearest num den := by
  have scaled (power : Nat) : den * k * power = den * power * k := Nat.mul_right_comm den k power
  simp only [nearest, Nat.mul_div_mul_right _ _ positive, scaled, roundHalfEven_mul_right positive]

/-- Equal fractions are rounded alike. -/
theorem nearest_congr (positive : 0 < den) (positive' : 0 < den')
    (equal : num * den' = num' * den) : f.nearest num den = f.nearest num' den' :=
  calc f.nearest num den = f.nearest (num * den') (den * den') := (nearest_mul_right positive').symm
    _ = f.nearest (num' * den) (den' * den) := by rw [equal, Nat.mul_comm den den']
    _ = f.nearest num' den' := nearest_mul_right positive

/-- What is less than half a unit is rounded to zero. -/
theorem nearest_of_lt (precise : 0 < f.precision) (small : 2 * num < den) :
    f.nearest num den = 0 := by
  have noUnit : num / den = 0 := Nat.div_eq_of_lt (by omega)
  have noShift : (num / den).log2 + 1 - f.precision = 0 := by
    rw [noUnit, Nat.log2_zero]
    omega
  simp only [nearest, noShift, Nat.zero_mul, Nat.zero_add, Nat.pow_eq, Nat.pow_zero, Nat.mul_one,
    roundHalfEven_of_lt small, Nat.min_zero]

theorem binade_pos : 0 < f.binade := Nat.two_pow_pos _

/-- A quotient with too many bits is rounded to infinity. -/
theorem nearest_of_log2 (large : 2 ^ f.exponentBits ≤ (num / den).log2 + 2 - f.precision) :
    f.nearest num den = f.infinity := by
  refine Nat.min_eq_left (Nat.le_trans (Nat.mul_le_mul_right f.binade ?_) (Nat.le_add_right _ _))
  rw [Nat.pow_eq]
  omega

/-- Whole units with no more bits than the precision are not rounded. -/
theorem nearest_of_lt_binade {units : Nat} (precise : 0 < f.precision) (small : units < f.binade) :
    f.nearest units 1 = min f.infinity units := by
  have noShift : units.log2 + 1 - f.precision = 0 := by
    by_cases zero : units = 0
    · rw [zero, Nat.log2_zero]
      omega
    · have bits : units.log2 < f.precision - 1 := (Nat.log2_lt zero).2 small
      omega
  have whole : roundHalfEven units 1 = units := by
    simpa using roundHalfEven_mul_self units Nat.one_pos
  rw [nearest, Nat.div_one, noShift, Nat.zero_mul, Nat.zero_add, Nat.pow_eq, Nat.pow_zero,
    Nat.mul_one, whole]

/-- The hidden bit is the top one, so the number of bits tells the exponent. -/
theorem nearest_mul_two_pow {significand : Nat} (precise : 0 < f.precision)
    (hidden : f.binade ≤ significand) (full : significand < 2 * f.binade) (shift : Nat) :
    f.nearest (significand * 2 ^ shift) 1 = min f.infinity (shift * f.binade + significand) := by
  have binade_eq : f.binade = 2 ^ (f.precision - 1) := rfl
  have nonzero : significand * 2 ^ shift ≠ 0 :=
    Nat.mul_ne_zero (Nat.ne_of_gt (Nat.lt_of_lt_of_le binade_pos hidden))
      (Nat.two_pow_pos shift).ne'
  have bits : (significand * 2 ^ shift).log2 = f.precision - 1 + shift := by
    refine (Nat.log2_eq_iff nonzero).2 ⟨?_, ?_⟩
    · rw [Nat.pow_add, ← binade_eq]
      exact Nat.mul_le_mul_right _ hidden
    · rw [Nat.add_right_comm, Nat.pow_add, Nat.pow_succ', ← binade_eq]
      exact Nat.mul_lt_mul_of_pos_right full (Nat.two_pow_pos shift)
  have shift_eq : f.precision - 1 + shift + 1 - f.precision = shift := by omega
  rw [nearest, Nat.div_one, bits, shift_eq, Nat.one_mul, Nat.pow_eq,
    roundHalfEven_mul_self _ (Nat.two_pow_pos shift)]

/-- A finite pattern is the nearest to its own units. -/
theorem nearest_units {pattern : Nat} (precise : 0 < f.precision) (finite : pattern ≤ f.infinity) :
    f.nearest (f.units pattern) 1 = pattern := by
  have split : pattern / f.binade * f.binade + pattern % f.binade = pattern :=
    Nat.div_add_mod' pattern f.binade
  have small : pattern % f.binade < f.binade := Nat.mod_lt _ binade_pos
  unfold units
  dsimp only
  by_cases subnormal : pattern / f.binade = 0
  · rw [subnormal, Nat.zero_mul, Nat.zero_add] at split
    rw [if_pos subnormal, nearest_of_lt_binade precise small, split, Nat.min_eq_right finite]
  · obtain ⟨shift, exponent⟩ := Nat.exists_eq_add_one_of_ne_zero subnormal
    have full : f.binade + pattern % f.binade < 2 * f.binade := by omega
    rw [if_neg subnormal, exponent, Nat.add_sub_cancel, Nat.pow_eq,
      nearest_mul_two_pow precise (Nat.le_add_right _ _) full]
    rw [exponent, Nat.add_one_mul] at split
    rw [← Nat.add_assoc, split, Nat.min_eq_right finite]

/-- The numerator of a decimal number in units. -/
def numerator (f : BinaryFormat) (d : Decimal) : Nat :=
  d.digits * 10 ^ d.exponent.toNat * 2 ^ f.unitExponent

/-- The denominator of a decimal number. -/
def denominator (d : Decimal) : Nat := 10 ^ (-d.exponent).toNat

theorem denominator_pos (d : Decimal) : 0 < denominator d := Nat.pow_pos (by decide)

theorem two_mul_overflowExponent (f : BinaryFormat) :
    2 ^ f.exponentBits ≤ 2 * f.overflowExponent := by
  rw [overflowExponent, Nat.pow_eq, ← Nat.pow_succ']
  exact Nat.pow_le_pow_right (by decide) (by omega)

/-- A power of ten that is as large as the exponent of overflow is out of range. -/
theorem nearest_of_overflowExponent_le {d : Decimal} (precise : 2 ≤ f.precision)
    (nonzero : d.digits ≠ 0) (large : f.overflowExponent ≤ d.exponent) :
    f.nearest (f.numerator d) (denominator d) = f.infinity := by
  obtain ⟨power, exponent⟩ := Int.eq_ofNat_of_zero_le (Int.le_trans (Int.natCast_nonneg _) large)
  have power_le : f.overflowExponent ≤ power := by omega
  have whole : denominator d = 1 := by simp [denominator, exponent]
  have least : 2 ^ (3 * power + f.unitExponent) ≤ f.numerator d :=
    calc 2 ^ (3 * power + f.unitExponent) = 1 * 8 ^ power * 2 ^ f.unitExponent := by
          rw [Nat.pow_add, Nat.pow_mul, Nat.one_mul]
      _ ≤ d.digits * 10 ^ power * 2 ^ f.unitExponent :=
          Nat.mul_le_mul_right _ (Nat.mul_le_mul (Nat.one_le_iff_ne_zero.2 nonzero)
            (Nat.pow_le_pow_left (by decide) power))
      _ = f.numerator d := by rw [numerator, exponent, Int.toNat_natCast]
  have bits : 3 * power + f.unitExponent ≤ (f.numerator d).log2 :=
    (Nat.le_log2 (Nat.ne_of_gt (Nat.lt_of_lt_of_le (Nat.two_pow_pos _) least))).2 least
  have positive : 0 < f.overflowExponent := Nat.two_pow_pos _
  have range := two_mul_overflowExponent f
  have unit : f.unitExponent = f.overflowExponent + f.precision - 3 := rfl
  apply nearest_of_log2
  rw [whole, Nat.div_one]
  omega

/-- A number whose digits and exponent stay below the unit is rounded to zero. -/
theorem nearest_of_lt_unit {d : Decimal} (precise : 0 < f.precision)
    (small : d.digits.log2 + 1 + d.exponent < -f.unitExponent) :
    f.nearest (f.numerator d) (denominator d) = 0 := by
  obtain ⟨power, exponent⟩ := Int.eq_ofNat_of_zero_le (show 0 ≤ -d.exponent by omega)
  have noPower : d.exponent.toNat = 0 := by omega
  have bits : d.digits.log2 + 1 + f.unitExponent + 1 ≤ power := by omega
  apply nearest_of_lt precise
  calc 2 * f.numerator d = 2 * (d.digits * 2 ^ f.unitExponent) := by
        rw [numerator, noPower, Nat.pow_zero, Nat.mul_one]
    _ < 2 * (2 ^ (d.digits.log2 + 1) * 2 ^ f.unitExponent) := by
        have top : d.digits < 2 ^ (d.digits.log2 + 1) := Nat.lt_log2_self
        have less := Nat.mul_lt_mul_of_pos_right top (Nat.two_pow_pos f.unitExponent)
        omega
    _ = 2 ^ (d.digits.log2 + 1 + f.unitExponent + 1) := by
        rw [← Nat.pow_add, ← Nat.pow_succ']
    _ ≤ 2 ^ power := Nat.pow_le_pow_right (by decide) bits
    _ ≤ 10 ^ power := Nat.pow_le_pow_left (by decide) power
    _ = denominator d := by rw [denominator, exponent, Int.toNat_natCast]

/-- The bounds on the exponent agree with rounding. -/
theorem ofDecimal_eq_nearest (precise : 2 ≤ f.precision) (d : Decimal) :
    f.ofDecimal d = f.nearest (f.numerator d) (denominator d) := by
  unfold ofDecimal
  by_cases zero : d.digits = 0
  · have less : 2 * f.numerator d < denominator d := by
      have positive := denominator_pos d
      simpa [numerator, zero] using positive
    rw [if_pos zero, nearest_of_lt (by omega) less]
  · rw [if_neg zero]
    split
    · next large => exact (nearest_of_overflowExponent_le precise zero large).symm
    · split
      · next small => exact (nearest_of_lt_unit (by omega) small).symm
      · rfl

/-- Zeros at the end of the digits count in the exponent. -/
theorem ofDecimal_mul_pow (precise : 2 ≤ f.precision) (digits zeros : Nat) (exponent : Int) :
    f.ofDecimal ⟨digits * 10 ^ zeros, exponent⟩ = f.ofDecimal ⟨digits, exponent + zeros⟩ := by
  rw [ofDecimal_eq_nearest precise, ofDecimal_eq_nearest precise]
  apply nearest_congr (denominator_pos _) (denominator_pos _)
  have powers : zeros + exponent.toNat + (-(exponent + zeros)).toNat =
      (exponent + zeros).toNat + (-exponent).toNat := by omega
  have equal := congrArg (10 ^ ·) powers
  simp only [Nat.pow_add] at equal
  simp only [numerator, denominator]
  calc digits * 10 ^ zeros * 10 ^ exponent.toNat * 2 ^ f.unitExponent *
        10 ^ (-(exponent + zeros)).toNat
      = digits * 2 ^ f.unitExponent *
          (10 ^ zeros * 10 ^ exponent.toNat * 10 ^ (-(exponent + zeros)).toNat) := by ring
    _ = digits * 2 ^ f.unitExponent *
          (10 ^ (exponent + zeros).toNat * 10 ^ (-exponent).toNat) := by rw [equal]
    _ = digits * 10 ^ (exponent + zeros).toNat * 2 ^ f.unitExponent * 10 ^ (-exponent).toNat := by
        ring

end BranchSieve.BinaryFormat
