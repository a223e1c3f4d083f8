import BranchSieve.Decimal.Literal
import Mathlib.Algebra.Order.Ring.Nat
import Mathlib.Data.List.TakeWhile

/-!
# The notation of decimal numbers

The text of a decimal number is read as the same value, in either notation: a point is put where
the digits are cut, or where zeros lead from the digits to it. Such a text starts with a digit and
has a point or a power of ten, by which it is told from a name and from an integer.
-/

namespace BranchSieve.Decimal

variable {digits : List Char}

/-- A text in front of the power of ten ends at the mark. -/
theorem span_isPowerMark {mantissa power : List Char}
    (plain : ∀ c ∈ mantissa, isPowerMark c = false)
    (marked : ∀ c ∈ power.head?, isPowerMark c = true) :
    (mantissa ++ power).takeWhile (!isPowerMark ·) = mantissa ∧
      (mantissa ++ power).dropWhile (!isPowerMark ·) = power := by
  have front : ∀ c ∈ mantissa, (!isPowerMark c) = true := fun c mem => by simp [plain c mem]
  rw [List.takeWhile_append_of_pos front, List.dropWhile_append_of_pos front]
  cases power with
  | nil => simp
  | cons mark power => simp [marked mark (by simp)]

theorem isPowerMark_of_isDigit {c : Char} (h : c.isDigit = true) : isPowerMark c = false := by
  have noMark : c ≠ 'e' ∧ c ≠ 'E' := by
    constructor
    · intro same
      subst same
      exact absurd h (by decide)
    · intro same
      subst same
      exact absurd h (by decide)
  simp [isPowerMark, noMark]

/-- A number is read by its parts: the digits on either side of the point, and the power of ten. -/
theorem read?_append {whole fraction pointed power : List Char} {exponent : Int}
    (digit : ∀ c ∈ whole ++ fraction, c.isDigit = true) (nonempty : whole ++ fraction ≠ [])
    (point : pointed = '.' :: fraction ∨ pointed = [] ∧ fraction = [])
    (marked : ∀ c ∈ power.head?, isPowerMark c = true) (read : readPower? power = some exponent) :
    read? (whole ++ pointed ++ power) =
      some ⟨Nat.ofDigitChars 10 (whole ++ fraction) 0, exponent - fraction.length⟩ := by
  have plain : ∀ c ∈ whole ++ pointed, isPowerMark c = false := by
    intro c mem
    rcases List.mem_append.1 mem with mem | mem
    · exact isPowerMark_of_isDigit (digit c (List.mem_append_left _ mem))
    · rcases point with rfl | ⟨rfl, -⟩
      · rcases List.mem_cons.1 mem with rfl | mem
        · rfl
        · exact isPowerMark_of_isDigit (digit c (List.mem_append_right _ mem))
      · simp at mem
  have noPoint : ∀ c ∈ whole, (c != '.') = true := by
    intro c mem
    have isDigit := digit c (List.mem_append_left _ mem)
    rw [bne_iff_ne]
    intro same
    subst same
    exact absurd isDigit (by decide)
  have parts : (whole ++ pointed).takeWhile (· != '.') = whole ∧
      ((whole ++ pointed).dropWhile (· != '.')).drop 1 = fraction := by
    rw [List.takeWhile_append_of_pos noPoint, List.dropWhile_append_of_pos noPoint]
    rcases point with rfl | ⟨rfl, rfl⟩ <;> simp
  have number : Text.natural? (whole ++ fraction) =
      some (Nat.ofDigitChars 10 (whole ++ fraction) 0) :=
    if_pos ⟨nonempty, List.all_eq_true.2 digit⟩
  obtain ⟨mantissa_eq, power_eq⟩ := span_isPowerMark plain marked
  simp only [read?, mantissa_eq, power_eq, parts.1, parts.2, number, read, Option.pure_def,
    Option.bind_eq_bind, Option.bind_some]

theorem ofDigitChars_zeros_append (zeros : Nat) (digits : List Char) :
    Nat.ofDigitChars 10 (List.replicate zeros '0' ++ digits) 0 = Nat.ofDigitChars 10 digits 0 := by
  rw [Nat.ofDigitChars_append, Nat.ofDigitChars_replicate_zero, Nat.mul_zero]

theorem ofDigitChars_append_zeros (digits : List Char) (zeros : Nat) :
    Nat.ofDigitChars 10 (digits ++ List.replicate zeros '0') 0 =
      Nat.ofDigitChars 10 digits 0 * 10 ^ zeros := by
  rw [Nat.ofDigitChars_append, Nat.ofDigitChars_replicate_zero, Nat.mul_comm]

theorem isDigit_of_mem_zeros {zeros : Nat} {c : Char} (mem : c ∈ List.replicate zeros '0') :
    c.isDigit = true := by
  rw [List.eq_of_mem_replicate mem]
  rfl

/-- A number without a power of ten. -/
theorem read?_point {whole fraction : List Char} (digit : ∀ c ∈ whole ++ fraction, c.isDigit = true)
    (nonempty : whole ++ fraction ≠ []) :
    read? (whole ++ '.' :: fraction) =
      some ⟨Nat.ofDigitChars 10 (whole ++ fraction) 0, -fraction.length⟩ := by
  have noPower : ∀ c ∈ ([] : List Char).head?, isPowerMark c = true := by simp
  simpa using read?_append digit nonempty (.inl rfl) noPower rfl

/-- A point in front of the digits. -/
theorem read?_positional_of_nonpos (digit : ∀ c ∈ digits, c.isDigit = true) {point : Int}
    (front : point ≤ 0) :
    read? (positional digits point) =
      some ⟨Nat.ofDigitChars 10 digits 0, point - digits.length⟩ := by
  have spelled : ∀ c ∈ ['0'] ++ (List.replicate (-point).toNat '0' ++ digits),
      c.isDigit = true := by
    simp only [List.mem_append, List.mem_singleton]
    intro c h
    rcases h with rfl | mem | mem
    · rfl
    · exact isDigit_of_mem_zeros mem
    · exact digit c mem
  have value : Nat.ofDigitChars 10 (['0'] ++ (List.replicate (-point).toNat '0' ++ digits)) 0 =
      Nat.ofDigitChars 10 digits 0 :=
    ofDigitChars_zeros_append ((-point).toNat + 1) digits
  have read := read?_point spelled (by simp)
  rw [value, List.length_append, List.length_replicate] at read
  rw [positional, if_pos front]
  refine read.trans ?_
  congr 2
  omega

/-- A point between the digits. -/
theorem read?_positional_of_lt (digit : ∀ c ∈ digits, c.isDigit = true) {point : Int}
    (front : 0 < point) (inside : point < digits.length) :
    read? (positional digits point) =
      some ⟨Nat.ofDigitChars 10 digits 0, point - digits.length⟩ := by
  have noGap : point.toNat - digits.length = 0 := by omega
  have nonempty : digits ≠ [] := List.ne_nil_of_length_pos (by omega)
  have behind : digits.drop point.toNat ≠ [] := by
    rw [ne_eq, List.drop_eq_nil_iff]
    omega
  have read : read? (digits.take point.toNat ++ '.' :: digits.drop point.toNat) = _ :=
    read?_point (by rwa [List.take_append_drop]) (by rwa [List.take_append_drop])
  rw [List.take_append_drop, List.length_drop] at read
  rw [positional, if_neg (by omega), noGap, List.replicate_zero, List.append_nil]
  dsimp only
  rw [if_neg behind, read]
  congr 2
  omega

/-- A point behind the digits, with zeros in the gap and a zero behind it. -/
theorem read?_positional_of_le (digit : ∀ c ∈ digits, c.isDigit = true) {point : Int}
    (front : 0 < point) (outside : digits.length ≤ point) :
    read? (positional digits point) =
      some ⟨Nat.ofDigitChars 10 digits 0 * 10 ^ (point.toNat - digits.length + 1), -1⟩ := by
  have whole : digits.take point.toNat = digits := List.take_of_length_le (by omega)
  have behind : digits.drop point.toNat = [] := List.drop_eq_nil_of_le (by omega)
  have zeros : digits ++ List.replicate (point.toNat - digits.length) '0' ++ ['0'] =
      digits ++ List.replicate (point.toNat - digits.length + 1) '0' := by
    rw [List.append_assoc, List.replicate_succ']
  have spelled : ∀ c ∈ digits ++ List.replicate (point.toNat - digits.length) '0' ++ ['0'],
      c.isDigit = true := by
    rw [zeros]
    intro c mem
    rcases List.mem_append.1 mem with mem | mem
    · exact digit c mem
    · exact isDigit_of_mem_zeros mem
  have read := read?_point spelled (by simp)
  rw [zeros, ofDigitChars_append_zeros] at read
  rw [positional, if_neg (by omega), whole, behind]
  exact read

/-- The scientific notation is read without a further zero. -/
theorem read?_scientific (nonempty : digits ≠ []) (digit : ∀ c ∈ digits, c.isDigit = true)
    (power : Int) :
    read? (scientific digits power) =
      some ⟨Nat.ofDigitChars 10 digits 0, power + 1 - digits.length⟩ := by
  have pointed : (if digits.drop 1 = [] then [] else '.' :: digits.drop 1) = '.' :: digits.drop 1 ∨
      (if digits.drop 1 = [] then [] else '.' :: digits.drop 1) = [] ∧ digits.drop 1 = [] := by
    by_cases single : digits.drop 1 = []
    · exact .inr ⟨if_pos single, single⟩
    · exact .inl (if_neg single)
  have marked : ∀ c ∈ ('e' :: Text.digitsOfInt power).head?, isPowerMark c = true := by
    simp [isPowerMark]
  have exponent : readPower? ('e' :: Text.digitsOfInt power) = some power :=
    Text.signed?_digitsOfInt power
  have read := read?_append (by rwa [List.take_append_drop]) (by rwa [List.take_append_drop])
    pointed marked exponent
  have positive : 0 < digits.length := List.length_pos_iff.2 nonempty
  rw [List.take_append_drop, List.length_drop] at read
  rw [scientific, read]
  congr 2
  omega

/-- The text of a decimal number is read as the same value. -/
theorem exists_read?_write (d : Decimal) :
    ∃ zeros : Nat, read? d.write = some ⟨d.digits * 10 ^ zeros, d.exponent - zeros⟩ := by
  have value : Nat.ofDigitChars 10 (Nat.toDigits 10 d.digits) 0 = d.digits :=
    Nat.ofDigitChars_ten_toDigits
  have nonempty : Nat.toDigits 10 d.digits ≠ [] := Nat.toDigits_ne_nil
  have digit : ∀ c ∈ Nat.toDigits 10 d.digits, c.isDigit = true :=
    fun _ mem => Text.isDigit_of_mem_digits mem
  unfold write
  generalize Nat.toDigits 10 d.digits = digits at *
  dsimp only
  split
  · by_cases front : d.exponent + digits.length - 1 + 1 ≤ 0
    · refine ⟨0, ?_⟩
      rw [read?_positional_of_nonpos digit front, value, Nat.pow_zero, Nat.mul_one]
      congr 2
      omega
    · by_cases inside : d.exponent + digits.length - 1 + 1 < digits.length
      · refine ⟨0, ?_⟩
        rw [read?_positional_of_lt digit (by omega) inside, value, Nat.pow_zero, Nat.mul_one]
        congr 2
        omega
      · refine ⟨d.exponent.toNat + 1, ?_⟩
        have gap : (d.exponent + digits.length - 1 + 1).toNat - digits.length + 1 =
            d.exponent.toNat + 1 := by omega
        rw [read?_positional_of_le digit (by omega) (by omega), value, gap]
        congr 2
        omega
  · refine ⟨0, ?_⟩
    rw [read?_scientific nonempty digit, value, Nat.pow_zero, Nat.mul_one]
    congr 2
    omega

/-- Can the character stand in the text of a decimal number? -/
def isDecimalChar (c : Char) : Bool := c.isDigit || c ∈ ['.', 'e', '-']

/-- What the text of a decimal number looks like: it starts with a digit, and it has a point or a
    power of ten. -/
structure IsDecimalText (text : List Char) : Prop where
  head : ∃ c ∈ text.head?, c.isDigit = true
  chars : ∀ c ∈ text, isDecimalChar c = true
  marked : ∃ c ∈ text, c = '.' ∨ c = 'e'

theorem isDecimalChar_of_isDigit {c : Char} (h : c.isDigit = true) : isDecimalChar c = true := by
  simp [isDecimalChar, h]

theorem isDecimalText_positional (nonempty : digits ≠ [])
    (digit : ∀ c ∈ digits, c.isDigit = true) (point : Int) :
    IsDecimalText (positional digits point) := by
  have zero : ∀ {zeros : Nat}, ∀ c ∈ List.replicate zeros '0', isDecimalChar c = true :=
    fun c mem => isDecimalChar_of_isDigit (isDigit_of_mem_zeros mem)
  have shown : ∀ c ∈ digits, isDecimalChar c = true :=
    fun c mem => isDecimalChar_of_isDigit (digit c mem)
  unfold positional
  split
  · refine ⟨⟨'0', rfl, rfl⟩, ?_, '.', by simp, .inl rfl⟩
    simp only [List.forall_mem_cons, List.forall_mem_append]
    exact ⟨rfl, rfl, zero, shown⟩
  · next front =>
    obtain ⟨before, point_eq⟩ := Nat.exists_eq_add_one_of_ne_zero (show point.toNat ≠ 0 by omega)
    have taken : ∀ c ∈ digits.take point.toNat, isDecimalChar c = true :=
      fun c mem => shown c (List.mem_of_mem_take mem)
    have dropped : ∀ c ∈ (if digits.drop point.toNat = [] then ['0'] else digits.drop point.toNat),
        isDecimalChar c = true := by
      split
      · simp [isDecimalChar]
      · exact fun c mem => shown c (List.mem_of_mem_drop mem)
    refine ⟨?_, ?_, '.', by simp, .inl rfl⟩
    · obtain ⟨c, digits, rfl⟩ := List.exists_cons_of_ne_nil nonempty
      exact ⟨c, by simp [point_eq], digit c List.mem_cons_self⟩
    · simp only [List.forall_mem_cons, List.forall_mem_append]
      exact ⟨⟨taken, zero⟩, rfl, dropped⟩

theorem isDecimalChar_of_mem_digitsOfInt {n : Int} {c : Char} (mem : c ∈ Text.digitsOfInt n) :
    isDecimalChar c = true := by
  unfold Text.digitsOfInt at mem
  split at mem
  · rcases List.mem_cons.1 mem with rfl | mem
    · rfl
    · exact isDecimalChar_of_isDigit (Text.isDigit_of_mem_digits mem)
  · exact isDecimalChar_of_isDigit (Text.isDigit_of_mem_digits mem)

theorem isDecimalText_scientific (nonempty : digits ≠ [])
    (digit : ∀ c ∈ digits, c.isDigit = true) (power : Int) :
    IsDecimalText (scientific digits power) := by
  have shown : ∀ c ∈ digits, isDecimalChar c = true :=
    fun c mem => isDecimalChar_of_isDigit (digit c mem)
  have fraction : ∀ c ∈ (if digits.drop 1 = [] then [] else '.' :: digits.drop 1),
      isDecimalChar c = true := by
    split
    · simp
    · rw [List.forall_mem_cons]
      exact ⟨rfl, fun c mem => shown c (List.mem_of_mem_drop mem)⟩
  refine ⟨?_, ?_, 'e', by simp [scientific], .inr rfl⟩
  · obtain ⟨c, digits, rfl⟩ := List.exists_cons_of_ne_nil nonempty
    exact ⟨c, by simp [scientific], digit c List.mem_cons_self⟩
  · simp only [scientific, List.forall_mem_cons, List.forall_mem_append]
    exact ⟨⟨fun c mem => shown c (List.mem_of_mem_take mem), fraction⟩, rfl,
      fun c => isDecimalChar_of_mem_digitsOfInt⟩

theorem isDecimalText_write (d : Decimal) : IsDecimalText d.write := by
  have nonempty : Nat.toDigits 10 d.digits ≠ [] := Nat.toDigits_ne_nil
  have digit : ∀ c ∈ Nat.toDigits 10 d.digits, c.isDigit = true :=
    fun _ mem => Text.isDigit_of_mem_digits mem
  unfold write
  dsimp only
  split
  · exact isDecimalText_positional nonempty digit _
  · exact isDecimalText_scientific nonempty digit _

end BranchSieve.Decimal
