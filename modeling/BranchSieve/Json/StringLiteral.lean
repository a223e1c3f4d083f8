import BranchSieve.Json.CodePoint

/-!
# String literals of JSON

The body of a string literal is read code point by code point up to the closing quote. An escape
with four hexadecimal digits gives a unit of UTF-16; two units that are a pair make one character.
`codePoints?` is total because every code point leaves a shorter text.
-/

namespace BranchSieve.Json

/-- The value of a hexadecimal digit. -/
def hexDigit? (c : Char) : Option Nat :=
  if c.isDigit then some (c.toNat - '0'.toNat)
  else if 'a' ≤ c ∧ c ≤ 'f' then some (c.toNat - 'a'.toNat + 10)
  else if 'A' ≤ c ∧ c ≤ 'F' then some (c.toNat - 'A'.toNat + 10)
  else none

/-- The value of four hexadecimal digits. -/
def hexUnit? (a b c d : Char) : Option Nat := do
  let digits ← [a, b, c, d].mapM hexDigit?
  return digits.foldl (fun value digit => 16 * value + digit) 0

/-- Is the unit the first of a pair? -/
def isHighSurrogate (unit : Nat) : Bool := 0xD800 ≤ unit && unit < 0xDC00

/-- Is the unit the second of a pair? -/
def isLowSurrogate (unit : Nat) : Bool := 0xDC00 ≤ unit && unit < 0xE000

/-- The character that a pair of units stands for. -/
def ofSurrogates (high low : Nat) : Char :=
  Char.ofNat (0x10000 + (high - 0xD800) * 0x400 + (low - 0xDC00))

/-- The character that a backslash and `c` stand for. -/
def escaped? (c : Char) : Option Char :=
  match c with
  | '"' | '\\' | '/' => some c
  | 'b' => some '\x08'
  | 'f' => some '\x0c'
  | 'n' => some '\n'
  | 'r' => some '\r'
  | 't' => some '\t'
  | _ => none

/-- The second unit of a pair at the start of a text, and the rest. -/
def lowSurrogate? : List Char → Option (Nat × List Char)
  | '\\' :: 'u' :: a :: b :: c :: d :: cs => do
    let unit ← hexUnit? a b c d
    if isLowSurrogate unit then some (unit, cs) else none
  | _ => none

/-- The code point that an escaped unit makes with what stands behind it, and the rest. Half of a
    pair that is not followed by the other half stands alone. -/
def joinUnit (unit : Nat) (cs : List Char) : CodePoint × List Char :=
  if isHighSurrogate unit then
    match lowSurrogate? cs with
    | some (low, rest) => (.char (ofSurrogates unit low), rest)
    | none => (.surrogate unit, cs)
  else if isLowSurrogate unit then (.surrogate unit, cs)
  else (.char (Char.ofNat unit), cs)

/-- The first code point that the body of a string stands for, and the rest of the body, which is
    not at its closing quote. -/
def codePoint? : List Char → Option (CodePoint × List Char)
  | '\\' :: 'u' :: a :: b :: c :: d :: cs => (hexUnit? a b c d).map (joinUnit · cs)
  | '\\' :: c :: cs => (escaped? c).map fun c => (.char c, cs)
  | c :: cs => if c = '\\' ∨ c.toNat < 0x20 then none else some (.char c, cs)
  | [] => none

theorem length_of_lowSurrogate? {text rest : List Char} {unit : Nat}
    (h : lowSurrogate? text = some (unit, rest)) : rest.length < text.length := by
  unfold lowSurrogate? at h
  split at h
  · obtain ⟨low, -, h⟩ := Option.bind_eq_some_iff.1 h
    split at h
    · simp only [Option.some.injEq, Prod.mk.injEq] at h
      obtain ⟨-, rfl⟩ := h
      simp only [List.length_cons]
      omega
    · simp at h
  · simp at h

theorem length_joinUnit_le (unit : Nat) (cs : List Char) :
    (joinUnit unit cs).2.length ≤ cs.length := by
  unfold joinUnit
  split
  · split
    · next found => exact Nat.le_of_lt (length_of_lowSurrogate? found)
    · exact Nat.le_refl _
  · split <;> exact Nat.le_refl _

theorem length_of_codePoint? {text rest : List Char} {point : CodePoint}
    (h : codePoint? text = some (point, rest)) : rest.length < text.length := by
  unfold codePoint? at h
  split at h
  · next a b c d cs =>
    obtain ⟨unit, -, same⟩ := Option.map_eq_some_iff.1 h
    have := length_joinUnit_le unit cs
    simp only [same] at this
    simp only [List.length_cons]
    omega
  · obtain ⟨c, -, same⟩ := Option.map_eq_some_iff.1 h
    obtain ⟨-, rfl⟩ := Prod.mk.inj same
    simp only [List.length_cons]
    omega
  · split at h <;> simp_all
  · simp at h

/-- The code points up to the closing quote, and what stands behind it. -/
def codePoints? : List Char → Option (List CodePoint × List Char)
  | '"' :: rest => some ([], rest)
  | text =>
    match h : codePoint? text with
    | none => none
    | some (point, rest) =>
      have := length_of_codePoint? h
      (codePoints? rest).map fun (points, behind) => (point :: points, behind)
termination_by text => text.length

theorem length_of_codePoints? {text rest : List Char} {points : List CodePoint}
    (h : codePoints? text = some (points, rest)) : rest.length < text.length := by
  fun_induction codePoints? text generalizing points rest with
  | case1 => simp_all
  | case2 => simp at h
  | case3 text _ point behind eq shorter ih =>
    obtain ⟨⟨points', rest'⟩, found, same⟩ := Option.map_eq_some_iff.1 h
    simp only [Prod.mk.injEq] at same
    obtain ⟨-, rfl⟩ := same
    have := ih found
    omega

end BranchSieve.Json
