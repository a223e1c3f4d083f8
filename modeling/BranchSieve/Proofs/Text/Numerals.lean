import BranchSieve.Decimal.Literal
import BranchSieve.Proofs.Text.Words

/-!
# The characters of numbers

A text that is read as a number consists of a few characters only, so the marks by which the operand
of `LDC` is told apart are not among them.
-/

namespace BranchSieve

namespace Text

variable {cs : List Char}

/-- Can the character stand in an integer? -/
def isIntegerChar (c : Char) : Bool := c.isDigit || c == '+' || c == '-'

theorem natural?_eq_some_iff {n : Nat} :
    natural? cs = some n ↔
      (cs ≠ [] ∧ ∀ c ∈ cs, c.isDigit = true) ∧ Nat.ofDigitChars 10 cs 0 = n := by
  simp [natural?]

theorem all_isIntegerChar_of_unsigned? {n : Nat} (h : unsigned? cs = some n) :
    cs ≠ [] ∧ ∀ c ∈ cs, isIntegerChar c = true := by
  unfold unsigned? at h
  split at h
  · next digits =>
    have digit := (natural?_eq_some_iff.1 h).1.2
    refine ⟨by simp, ?_⟩
    intro c given
    rcases given with _ | ⟨_, mem⟩
    · rfl
    · simp [isIntegerChar, digit c mem]
  · obtain ⟨⟨nonempty, digit⟩, -⟩ := natural?_eq_some_iff.1 h
    exact ⟨nonempty, fun c mem => by simp [isIntegerChar, digit c mem]⟩

theorem all_isIntegerChar_of_signed? {n : Int} (h : signed? cs = some n) :
    cs ≠ [] ∧ ∀ c ∈ cs, isIntegerChar c = true := by
  unfold signed? at h
  split at h
  · next digits =>
    obtain ⟨n, number, -⟩ := Option.map_eq_some_iff.1 h
    have digit := (natural?_eq_some_iff.1 number).1.2
    refine ⟨by simp, ?_⟩
    intro c given
    rcases given with _ | ⟨_, mem⟩
    · rfl
    · simp [isIntegerChar, digit c mem]
  · obtain ⟨n, number, -⟩ := Option.map_eq_some_iff.1 h
    exact all_isIntegerChar_of_unsigned? number

theorem all_isIntegerChar_of_int32? {n : Int32} (h : int32? cs = some n) :
    cs ≠ [] ∧ ∀ c ∈ cs, isIntegerChar c = true := by
  obtain ⟨number, signed, -⟩ := Option.bind_eq_some_iff.1 h
  exact all_isIntegerChar_of_signed? signed

theorem all_isIntegerChar_of_int64? {n : Int64} (h : int64? cs = some n) :
    cs ≠ [] ∧ ∀ c ∈ cs, isIntegerChar c = true := by
  obtain ⟨number, signed, -⟩ := Option.bind_eq_some_iff.1 h
  exact all_isIntegerChar_of_signed? signed

/-! ## Integers read back -/

theorem uint8?_toDigits (n : UInt8) : uint8? (Nat.toDigits 10 n.toNat) = some n := by
  rw [uint8?, unsigned?_toDigits, Option.bind_some, if_pos n.toNat_lt, UInt8.ofNat_toNat]

theorem uint16?_toDigits (n : UInt16) : uint16? (Nat.toDigits 10 n.toNat) = some n := by
  rw [uint16?, unsigned?_toDigits, Option.bind_some, if_pos n.toNat_lt, UInt16.ofNat_toNat]

theorem uint32?_toDigits (n : UInt32) : uint32? (Nat.toDigits 10 n.toNat) = some n := by
  rw [uint32?, unsigned?_toDigits, Option.bind_some, if_pos n.toNat_lt, UInt32.ofNat_toNat]

theorem int16?_digitsOfInt (n : Int16) : int16? (digitsOfInt n.toInt) = some n := by
  rw [int16?, signed?_digitsOfInt, Option.bind_some, if_pos ⟨n.minValue_le_toInt, n.toInt_le⟩,
    Int16.ofInt_toInt]

theorem int32?_digitsOfInt (n : Int32) : int32? (digitsOfInt n.toInt) = some n := by
  rw [int32?, signed?_digitsOfInt, Option.bind_some, if_pos ⟨n.minValue_le_toInt, n.toInt_le⟩,
    Int32.ofInt_toInt]

theorem int64?_digitsOfInt (n : Int64) : int64? (digitsOfInt n.toInt) = some n := by
  rw [int64?, signed?_digitsOfInt, Option.bind_some, if_pos ⟨n.minValue_le_toInt, n.toInt_le⟩,
    Int64.ofInt_toInt]

theorem isBlank_of_isIntegerChar {c : Char} (h : isIntegerChar c = true) : isBlank c = false := by
  simp only [isIntegerChar, Bool.or_eq_true, beq_iff_eq] at h
  rcases h with (digit | rfl) | rfl
  · exact isBlank_of_isDigit digit
  · rfl
  · rfl

theorem isWord_toDigits (n : Nat) : IsWord (Nat.toDigits 10 n) :=
  ⟨Nat.toDigits_ne_nil, fun _ mem => isBlank_of_isDigit (isDigit_of_mem_digits mem)⟩

theorem isWord_digitsOfInt (n : Int) : IsWord (digitsOfInt n) := by
  obtain ⟨nonempty, chars⟩ := all_isIntegerChar_of_signed? (signed?_digitsOfInt n)
  exact ⟨nonempty, fun c mem => isBlank_of_isIntegerChar (chars c mem)⟩

end Text

/-- What is left where a run of characters ends starts with another character. -/
theorem not_of_dropWhile_eq_cons {p : Char → Bool} {cs rest : List Char} {c : Char}
    (h : cs.dropWhile p = c :: rest) : p c = false := by
  simpa [h] using List.head?_dropWhile_not p cs

/-- Can the character stand in a literal of a floating point number? -/
def isLiteralChar (c : Char) : Bool :=
  Text.isIntegerChar c || c ∈ ['.', 'e', 'E'] || c.toLower ∈ ['i', 'n', 'f', 't', 'y', 'a']

theorem all_isLiteralChar_of_integer {cs : List Char}
    (h : ∀ c ∈ cs, Text.isIntegerChar c = true) : ∀ c ∈ cs, isLiteralChar c = true :=
  fun c mem => by simp [isLiteralChar, h c mem]

theorem Decimal.all_isLiteralChar {text : List Char} {d : Decimal}
    (h : Decimal.read? text = some d) : text ≠ [] ∧ ∀ c ∈ text, isLiteralChar c = true := by
  obtain ⟨digits, mantissa, h⟩ := Option.bind_eq_some_iff.1 h
  obtain ⟨power, exponent, -⟩ := Option.bind_eq_some_iff.1 h
  obtain ⟨⟨nonempty, digit⟩, -⟩ := Text.natural?_eq_some_iff.1 mantissa
  have literal_of_digit : ∀ c : Char, c.isDigit = true → isLiteralChar c = true := by
    intro c isDigit
    simp [isLiteralChar, Text.isIntegerChar, isDigit]
  refine ⟨fun empty => by simp [empty] at nonempty, fun c mem => ?_⟩
  rw [← List.takeWhile_append_dropWhile (p := (!isPowerMark ·)) (l := text), List.mem_append] at mem
  rcases mem with front | back
  · rw [← List.takeWhile_append_dropWhile (p := (· != '.'))
      (l := text.takeWhile (!isPowerMark ·)), List.mem_append] at front
    rcases front with whole | fraction
    · exact literal_of_digit c (digit c (List.mem_append_left _ whole))
    · cases dropped : (text.takeWhile (!isPowerMark ·)).dropWhile (· != '.') with
      | nil => simp [dropped] at fraction
      | cons point rest =>
        rw [dropped] at fraction digit
        rcases List.mem_cons.1 fraction with rfl | mem
        · have isPoint : c = '.' := by simpa using not_of_dropWhile_eq_cons dropped
          simp [isLiteralChar, isPoint]
        · exact literal_of_digit c (digit c (List.mem_append_right _ mem))
  · cases dropped : text.dropWhile (!isPowerMark ·) with
    | nil => simp [dropped] at back
    | cons mark rest =>
      rw [dropped] at back exponent
      rcases List.mem_cons.1 back with rfl | mem
      · have isMark : isPowerMark c = true := by simpa using not_of_dropWhile_eq_cons dropped
        simp only [isPowerMark, Bool.or_eq_true, beq_iff_eq] at isMark
        rcases isMark with rfl | rfl <;> rfl
      · exact all_isLiteralChar_of_integer (Text.all_isIntegerChar_of_signed? exponent).2 c mem

namespace BinaryFormat

variable {f : BinaryFormat} {text : List Char} {bits : Nat}

theorem all_isLiteralChar_of_name {name : List Char} (nonempty : name ≠ [])
    (letters : name.all (· ∈ ['i', 'n', 'f', 't', 'y', 'a']) = true)
    (same : text.map Char.toLower = name) : text ≠ [] ∧ ∀ c ∈ text, isLiteralChar c = true := by
  subst same
  refine ⟨by simpa using nonempty, fun c mem => ?_⟩
  have letter := List.all_eq_true.1 letters c.toLower (List.mem_map_of_mem mem)
  simp only [isLiteralChar, letter, Bool.or_true]

theorem all_isLiteralChar_of_pattern (h : f.readPattern? text = some bits) :
    text ≠ [] ∧ ∀ c ∈ text, isLiteralChar c = true := by
  unfold readPattern? at h
  dsimp only at h
  split at h
  · next name => exact all_isLiteralChar_of_name (by simp) (by decide) name
  · split at h
    · next name =>
      rcases name with name | name
      · exact all_isLiteralChar_of_name (by simp) (by decide) name
      · exact all_isLiteralChar_of_name (by simp) (by decide) name
    · obtain ⟨d, read, -⟩ := Option.map_eq_some_iff.1 h
      exact Decimal.all_isLiteralChar read

/-- A text that is read as a floating point number has the characters of one. -/
theorem all_isLiteralChar (h : f.read? text = some bits) :
    text ≠ [] ∧ ∀ c ∈ text, isLiteralChar c = true := by
  unfold read? at h
  split at h
  · next unsigned =>
    obtain ⟨pattern, read, -⟩ := Option.map_eq_some_iff.1 h
    refine ⟨by simp, ?_⟩
    intro c given
    rcases given with _ | ⟨_, mem⟩
    · rfl
    · exact (all_isLiteralChar_of_pattern read).2 c mem
  · next unsigned =>
    refine ⟨by simp, ?_⟩
    intro c given
    rcases given with _ | ⟨_, mem⟩
    · rfl
    · exact (all_isLiteralChar_of_pattern h).2 c mem
  · exact all_isLiteralChar_of_pattern h

end BinaryFormat

end BranchSieve
