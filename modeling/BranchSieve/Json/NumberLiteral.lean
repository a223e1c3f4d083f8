/-!
# Number literals of JSON

A number literal is an optional sign, a whole part without needless zeros, an optional fraction and
an optional power of ten. It is kept as text. The lemmas say that what a reader takes and what it
leaves make up the text that it was given.
-/

namespace BranchSieve.Json

/-- The run of digits at the start of a text, if there is one, and the rest. -/
def digits? (text : List Char) : Option (List Char × List Char) :=
  let digits := text.takeWhile Char.isDigit
  if digits = [] then none else some (digits, text.dropWhile Char.isDigit)

/-- The whole part of a number: a zero, or digits that do not start with one. -/
def whole? : List Char → Option (List Char × List Char)
  | '0' :: cs => some (['0'], cs)
  | cs => digits? cs

/-- The fraction of a number, which may be absent. -/
def fraction? : List Char → Option (List Char × List Char)
  | '.' :: cs => (digits? cs).map fun (digits, rest) => ('.' :: digits, rest)
  | cs => some ([], cs)

/-- The sign of a power of ten, which may be absent. -/
def powerSign : List Char → List Char × List Char
  | '+' :: cs => (['+'], cs)
  | '-' :: cs => (['-'], cs)
  | cs => ([], cs)

/-- The power of ten of a number, which may be absent. -/
def power? : List Char → Option (List Char × List Char)
  | c :: cs =>
    if c = 'e' ∨ c = 'E' then
      let signed := powerSign cs
      (digits? signed.2).map fun (digits, rest) => (c :: signed.1 ++ digits, rest)
    else some ([], c :: cs)
  | [] => some ([], [])

/-- The number without a sign at the start of a text, and the rest. -/
def magnitude? (text : List Char) : Option (List Char × List Char) := do
  let (whole, text) ← whole? text
  let (fraction, text) ← fraction? text
  let (power, text) ← power? text
  return (whole ++ fraction ++ power, text)

/-- The number at the start of a text, and the rest. -/
def number? : List Char → Option (List Char × List Char)
  | '-' :: cs => (magnitude? cs).map fun (text, rest) => ('-' :: text, rest)
  | cs => magnitude? cs

theorem append_of_digits? {text digits rest : List Char} (h : digits? text = some (digits, rest)) :
    text = digits ++ rest ∧ digits ≠ [] := by
  simp only [digits?, Option.ite_none_left_eq_some, Option.some.injEq, Prod.mk.injEq] at h
  obtain ⟨some, rfl, rfl⟩ := h
  exact ⟨List.takeWhile_append_dropWhile.symm, some⟩

theorem append_of_whole? {text whole rest : List Char} (h : whole? text = some (whole, rest)) :
    text = whole ++ rest ∧ whole ≠ [] := by
  unfold whole? at h
  split at h
  · simp only [Option.some.injEq, Prod.mk.injEq] at h
    simp [← h.1, ← h.2]
  · exact append_of_digits? h

theorem append_of_fraction? {text fraction rest : List Char}
    (h : fraction? text = some (fraction, rest)) : text = fraction ++ rest := by
  unfold fraction? at h
  split at h
  · obtain ⟨⟨digits, rest'⟩, found, same⟩ := Option.map_eq_some_iff.1 h
    simp only [Prod.mk.injEq] at same
    obtain ⟨rfl, rfl⟩ := same
    simp [(append_of_digits? found).1]
  · simp_all

theorem append_of_powerSign (text : List Char) :
    text = (powerSign text).1 ++ (powerSign text).2 := by
  unfold powerSign
  split <;> rfl

theorem append_of_power? {text power rest : List Char} (h : power? text = some (power, rest)) :
    text = power ++ rest := by
  unfold power? at h
  split at h
  · next c cs =>
    split at h
    · obtain ⟨⟨digits, rest'⟩, found, same⟩ := Option.map_eq_some_iff.1 h
      simp only [Prod.mk.injEq] at same
      obtain ⟨rfl, rfl⟩ := same
      simp [← (append_of_digits? found).1, ← append_of_powerSign cs]
    · simp_all
  · simp_all

theorem append_of_magnitude? {text magnitude rest : List Char}
    (h : magnitude? text = some (magnitude, rest)) : text = magnitude ++ rest ∧ magnitude ≠ [] := by
  obtain ⟨⟨whole, afterWhole⟩, isWhole, h⟩ := Option.bind_eq_some_iff.1 h
  obtain ⟨⟨fraction, afterFraction⟩, isFraction, h⟩ := Option.bind_eq_some_iff.1 h
  obtain ⟨⟨power, afterPower⟩, isPower, h⟩ := Option.bind_eq_some_iff.1 h
  simp only [Option.pure_def, Option.some.injEq, Prod.mk.injEq] at h
  obtain ⟨rfl, rfl⟩ := h
  obtain ⟨rfl, nonempty⟩ := append_of_whole? isWhole
  simp [append_of_fraction? isFraction, append_of_power? isPower, nonempty]

theorem append_of_number? {text number rest : List Char} (h : number? text = some (number, rest)) :
    text = number ++ rest ∧ number ≠ [] := by
  unfold number? at h
  split at h
  · obtain ⟨⟨magnitude, rest'⟩, found, same⟩ := Option.map_eq_some_iff.1 h
    simp only [Prod.mk.injEq] at same
    obtain ⟨rfl, rfl⟩ := same
    simp [(append_of_magnitude? found).1]
  · exact append_of_magnitude? h

end BranchSieve.Json
