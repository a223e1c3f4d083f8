import BranchSieve.Proofs.Decimal.Notation
import BranchSieve.Proofs.Decimal.Rounding

/-!
# Literals read back

The search for the shortest decimal number ends with one that rounds to the pattern, since the last
grid holds the value itself. Its text spells the same value, with zeros behind the digits at most,
so a literal is read as the bits that it was written for.
-/

namespace BranchSieve.BinaryFormat

variable {f : BinaryFormat} {pattern : Nat}

theorem ofDecimal_trim (precise : 2 ≤ f.precision) (d : Decimal) :
    f.ofDecimal d.trim = f.ofDecimal d := by
  fun_induction Decimal.trim d with
  | case1 d zero ih =>
    have digits : d.digits / 10 * 10 ^ 1 = d.digits := by omega
    calc f.ofDecimal (Decimal.trim ⟨d.digits / 10, d.exponent + 1⟩)
        = f.ofDecimal ⟨d.digits / 10, d.exponent + 1⟩ := ih
      _ = f.ofDecimal ⟨d.digits / 10 * 10 ^ 1, d.exponent⟩ :=
          (ofDecimal_mul_pow precise _ 1 d.exponent).symm
      _ = f.ofDecimal d := by rw [digits]
  | case2 => rfl

/-- A grid point is one that reads back. -/
theorem ofDecimal_of_gridPoint? {grid : Int} {d : Decimal}
    (found : f.gridPoint? pattern grid = some d) : f.ofDecimal d = pattern := by
  unfold gridPoint? at found
  dsimp only at found
  split at found
  · next below =>
    rw [Bool.and_eq_true, beq_iff_eq] at below
    rw [← Option.some.inj found, below.1]
  · split at found
    · next above =>
      rw [beq_iff_eq] at above
      rw [← Option.some.inj found, above]
    · cases found

/-- A grid that is as fine as the unit holds the value of every pattern. -/
theorem ofDecimal_overGrid (precise : 2 ≤ f.precision) (finite : pattern ≤ f.infinity) {grid : Int}
    (fine : grid ≤ -f.unitExponent) :
    f.ofDecimal ⟨(f.overGrid (f.units pattern) grid).1 / (f.overGrid (f.units pattern) grid).2,
      grid⟩ = pattern := by
  obtain ⟨power, exponent⟩ := Int.eq_ofNat_of_zero_le (show 0 ≤ -grid by omega)
  have noPower : grid.toNat = 0 := by omega
  have unit_le : f.unitExponent ≤ power := by omega
  have divides : 2 ^ f.unitExponent ∣ f.units pattern * 10 ^ power :=
    Nat.dvd_mul_left_of_dvd
      ((Nat.pow_dvd_pow 2 unit_le).trans (pow_dvd_pow_of_dvd (by decide) power)) _
  rw [ofDecimal_eq_nearest precise]
  simp only [overGrid, numerator, denominator, exponent, noPower, Int.toNat_natCast, Nat.pow_eq,
    Nat.pow_zero, Nat.mul_one, Nat.div_mul_cancel divides]
  calc f.nearest (f.units pattern * 10 ^ power) (10 ^ power)
      = f.nearest (f.units pattern * 10 ^ power) (1 * 10 ^ power) := by rw [Nat.one_mul]
    _ = f.nearest (f.units pattern) 1 := nearest_mul_right (Nat.pow_pos (by decide))
    _ = pattern := nearest_units (by omega) finite

/-- The search ends with a number that reads back, if its last grid is fine enough. -/
theorem ofDecimal_shortestFrom (precise : 2 ≤ f.precision) (finite : pattern ≤ f.infinity)
    {finer : Nat} {grid : Int} (fine : grid - finer ≤ -f.unitExponent) :
    f.ofDecimal (f.shortestFrom pattern finer grid) = pattern := by
  induction finer generalizing grid with
  | zero => exact ofDecimal_overGrid precise finite (by omega)
  | succ finer ih =>
    rw [shortestFrom]
    split
    · next found => exact ofDecimal_of_gridPoint? found
    · apply ih
      omega

theorem ofDecimal_shortest (precise : 2 ≤ f.precision) (finite : pattern ≤ f.infinity) :
    f.ofDecimal (f.shortest pattern) = pattern := by
  unfold shortest
  by_cases zero : pattern = 0
  · rw [if_pos zero, zero]
    rfl
  · rw [if_neg zero, ofDecimal_trim precise]
    apply ofDecimal_shortestFrom precise finite
    omega

/-- The text of a pattern that is no NaN. -/
def magnitude (f : BinaryFormat) (pattern : Nat) : List Char :=
  if pattern = f.infinity then "Infinity".toList else (f.shortest pattern).write

theorem write_of_isNaN_eq_false {bits : Nat} (number : f.isNaN bits = false) :
    f.write bits =
      if f.isNegative bits then '-' :: f.magnitude (f.pattern bits)
      else f.magnitude (f.pattern bits) :=
  if_neg (by simpa [isNaN] using number)

theorem toLower_of_isDigit {c : Char} (h : c.isDigit = true) : c.toLower = c := by
  simp only [Char.isDigit, Bool.and_eq_true, decide_eq_true_eq] at h
  have bound : c.val.toNat ≤ 57 := UInt32.le_iff_toNat_le.1 h.2
  apply dif_neg
  intro upper
  have least : 65 ≤ c.val.toNat := UInt32.le_iff_toNat_le.1 upper.1
  omega

/-- The text of a decimal number is no name. -/
theorem readPattern?_of_isDecimalText {text : List Char} (shaped : Decimal.IsDecimalText text) :
    f.readPattern? text = (Decimal.read? text).map f.ofDecimal := by
  obtain ⟨c, first, isDigit⟩ := shaped.head
  have noName : ∀ {d : Char} {name : List Char}, d.isDigit = false →
      text.map Char.toLower ≠ d :: name := by
    intro d name letter same
    have head : c = d := by
      have heads := congrArg List.head? same
      rwa [List.head?_map, Option.mem_def.1 first, Option.map_some, toLower_of_isDigit isDigit,
        List.head?_cons, Option.some.injEq] at heads
    rw [← head, isDigit] at letter
    cases letter
  unfold readPattern?
  dsimp only
  rw [if_neg (noName rfl), if_neg (not_or.2 ⟨noName rfl, noName rfl⟩)]

/-- The text of a pattern is read as the pattern. -/
theorem readPattern?_magnitude (precise : 2 ≤ f.precision) (finite : pattern ≤ f.infinity) :
    f.readPattern? (f.magnitude pattern) = some pattern := by
  unfold magnitude
  split
  · next infinite =>
    rw [infinite]
    rfl
  · obtain ⟨zeros, read⟩ := Decimal.exists_read?_write (f.shortest pattern)
    rw [readPattern?_of_isDecimalText (Decimal.isDecimalText_write _), read, Option.map_some,
      ofDecimal_mul_pow precise, Int.sub_add_cancel]
    exact congrArg some (ofDecimal_shortest precise finite)

/-- The text of a pattern has no sign. -/
theorem read?_magnitude : f.read? (f.magnitude pattern) = f.readPattern? (f.magnitude pattern) := by
  have unsigned : ∀ c ∈ (f.magnitude pattern).head?, c ≠ '-' ∧ c ≠ '+' := by
    unfold magnitude
    split
    · simp
    · obtain ⟨c, first, isDigit⟩ := (Decimal.isDecimalText_write (f.shortest pattern)).head
      intro d mem
      rw [← Option.mem_unique mem first] at isDigit
      constructor
      · intro minus
        exact absurd isDigit (by rw [minus]; decide)
      · intro plus
        exact absurd isDigit (by rw [plus]; decide)
  unfold read?
  split
  · next shown => exact absurd rfl (unsigned '-' (by simp [shown])).1
  · next shown => exact absurd rfl (unsigned '+' (by simp [shown])).2
  · rfl

/-- Bits that a literal spells: those of a number, and of NaN those that a reader makes. -/
def HasLiteral (f : BinaryFormat) (bits : Nat) : Prop := f.isNaN bits = false ∨ bits = f.nan

theorem signBit_eq (f : BinaryFormat) : f.signBit = f.infinity + f.binade := by
  have positive : 0 < 2 ^ f.exponentBits := Nat.two_pow_pos _
  rw [signBit, infinity, ← Nat.succ_mul, Nat.succ_eq_add_one, Nat.pow_eq,
    Nat.sub_add_cancel positive]

theorem write_nan (precise : 2 ≤ f.precision) : f.write f.nan = "NaN".toList := by
  have binade_ge : 2 ^ 1 ≤ f.binade := Nat.pow_le_pow_right (by decide) (by omega)
  have less : f.nan < f.signBit := by
    rw [signBit_eq, nan]
    omega
  have isNaN : f.infinity < f.pattern f.nan := by
    rw [pattern, Nat.mod_eq_of_lt less, nan]
    omega
  exact if_pos isNaN

/-- A literal is read as the bits that it was written for. -/
theorem read?_write (precise : 2 ≤ f.precision) {bits : Nat} (width : bits < 2 * f.signBit)
    (literal : f.HasLiteral bits) : f.read? (f.write bits) = some bits := by
  rcases literal with number | rfl
  · have finite : f.pattern bits ≤ f.infinity := by simpa [isNaN] using number
    rw [write_of_isNaN_eq_false number]
    by_cases negative : f.signBit ≤ bits
    · have value : f.signBit + f.pattern bits = bits := by
        rw [pattern, Nat.mod_eq_sub_mod negative, Nat.mod_eq_of_lt (by omega)]
        omega
      rw [if_pos (by simpa [isNegative] using negative), read?,
        readPattern?_magnitude precise finite]
      exact congrArg some value
    · have value : f.pattern bits = bits := Nat.mod_eq_of_lt (by omega)
      rw [if_neg (by simpa [isNegative] using negative), read?_magnitude,
        readPattern?_magnitude precise finite, value]
  · rw [write_nan precise]
    rfl

/-- Can the character stand in a printed literal? -/
def isPrintedChar (c : Char) : Bool := Decimal.isDecimalChar c || c ∈ "InfityNa".toList

/-- A literal has the form by which its type is told. -/
theorem write_spelling (f : BinaryFormat) (bits : Nat) :
    (∀ c ∈ f.write bits, isPrintedChar c = true) ∧
      ((∃ c ∈ f.write bits, c = '.' ∨ c = 'e') ∨ f.write bits = "NaN".toList ∨
        "Infinity".toList <:+ f.write bits) := by
  have shown : ∀ pattern, ∀ c ∈ f.magnitude pattern, isPrintedChar c = true := by
    intro pattern
    unfold magnitude
    split
    · exact List.all_eq_true.1 (by decide)
    · intro c mem
      rw [isPrintedChar, (Decimal.isDecimalText_write (f.shortest pattern)).chars c mem,
        Bool.true_or]
  have form : ∀ pattern, (∃ c ∈ f.magnitude pattern, c = '.' ∨ c = 'e') ∨
      "Infinity".toList <:+ f.magnitude pattern := by
    intro pattern
    unfold magnitude
    split
    · exact .inr (List.suffix_refl _)
    · exact .inl (Decimal.isDecimalText_write (f.shortest pattern)).marked
  by_cases number : f.isNaN bits = false
  · rw [write_of_isNaN_eq_false number]
    split
    · refine ⟨List.forall_mem_cons.2 ⟨by decide, shown _⟩, ?_⟩
      rcases form (f.pattern bits) with ⟨c, mem, mark⟩ | suffix
      · exact .inl ⟨c, List.mem_cons_of_mem _ mem, mark⟩
      · exact .inr (.inr (suffix.trans (List.suffix_cons _ _)))
    · exact ⟨shown _, (form _).imp_right .inr⟩
  · have isNaN : f.write bits = "NaN".toList := if_pos (by simpa [isNaN] using number)
    rw [isNaN]
    exact ⟨List.all_eq_true.1 (by decide), .inr (.inl rfl)⟩

end BranchSieve.BinaryFormat
