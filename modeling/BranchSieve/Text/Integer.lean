/-!
# Integers in decimal notation

An integer is one or more ASCII digits with an optional sign in front: `+` for every type, `-` for
the signed types only, so that `-0` is no unsigned number. A reader for a fixed width refuses what
its type cannot hold. The lemmas say that each reader takes the number that core prints.
-/

namespace BranchSieve.Text

/-- The number that a run of digits stands for. -/
def natural? (cs : List Char) : Option Nat :=
  if cs ≠ [] ∧ cs.all Char.isDigit then some (Nat.ofDigitChars 10 cs 0) else none

/-- A number without a minus sign. -/
def unsigned? : List Char → Option Nat
  | '+' :: cs => natural? cs
  | cs => natural? cs

/-- A number with or without a sign. -/
def signed? : List Char → Option Int
  | '-' :: cs => (natural? cs).map fun n : Nat => -(n : Int)
  | cs => (unsigned? cs).map fun n : Nat => (n : Int)

/-- An unsigned number of 8 bits. -/
def uint8? (cs : List Char) : Option UInt8 :=
  (unsigned? cs).bind fun n => if n < UInt8.size then some (UInt8.ofNat n) else none

/-- An unsigned number of 16 bits. -/
def uint16? (cs : List Char) : Option UInt16 :=
  (unsigned? cs).bind fun n => if n < UInt16.size then some (UInt16.ofNat n) else none

/-- An unsigned number of 32 bits. -/
def uint32? (cs : List Char) : Option UInt32 :=
  (unsigned? cs).bind fun n => if n < UInt32.size then some (UInt32.ofNat n) else none

/-- A signed number of 16 bits. -/
def int16? (cs : List Char) : Option Int16 :=
  (signed? cs).bind fun n =>
    if Int16.minValue.toInt ≤ n ∧ n ≤ Int16.maxValue.toInt then some (Int16.ofInt n) else none

/-- A signed number of 32 bits. -/
def int32? (cs : List Char) : Option Int32 :=
  (signed? cs).bind fun n =>
    if Int32.minValue.toInt ≤ n ∧ n ≤ Int32.maxValue.toInt then some (Int32.ofInt n) else none

/-- A signed number of 64 bits. -/
def int64? (cs : List Char) : Option Int64 :=
  (signed? cs).bind fun n =>
    if Int64.minValue.toInt ≤ n ∧ n ≤ Int64.maxValue.toInt then some (Int64.ofInt n) else none

/-- The digits of a number, with a minus sign in front of a negative one. -/
def digitsOfInt (n : Int) : List Char :=
  if n < 0 then '-' :: Nat.toDigits 10 n.natAbs else Nat.toDigits 10 n.natAbs

theorem isDigit_of_mem_digits {n : Nat} {c : Char} (h : c ∈ Nat.toDigits 10 n) :
    c.isDigit = true :=
  Nat.isDigit_of_mem_toDigits (by decide) (by decide) h

@[simp]
theorem natural?_toDigits (n : Nat) : natural? (Nat.toDigits 10 n) = some n := by
  have digits : (Nat.toDigits 10 n).all Char.isDigit :=
    List.all_eq_true.2 fun _ h => isDigit_of_mem_digits h
  simp only [natural?, ne_eq, Nat.toDigits_ne_nil, not_false_eq_true, digits, and_self, if_true,
    Nat.ofDigitChars_ten_toDigits]

/-- No number starts with a sign. -/
theorem toDigits_ne_cons {n : Nat} {c : Char} {cs : List Char} (h : c.isDigit = false) :
    Nat.toDigits 10 n ≠ c :: cs := fun eq => by
  have := isDigit_of_mem_digits (n := n) (c := c) (by simp [eq])
  simp [h] at this

@[simp]
theorem unsigned?_toDigits (n : Nat) : unsigned? (Nat.toDigits 10 n) = some n := by
  unfold unsigned?
  split
  · next eq => exact absurd eq (toDigits_ne_cons (by decide))
  · simp

@[simp]
theorem signed?_digitsOfInt (n : Int) : signed? (digitsOfInt n) = some n := by
  unfold digitsOfInt
  split
  · next neg =>
    simp only [signed?, natural?_toDigits, Option.map_some, Option.some.injEq]
    omega
  · next nonneg =>
    unfold signed?
    split
    · next eq => exact absurd eq (toDigits_ne_cons (by decide))
    · simp only [unsigned?_toDigits, Option.map_some, Option.some.injEq]
      omega

end BranchSieve.Text
