import BranchSieve.Proofs.Json.Reading
import BranchSieve.Text.Integer

/-!
# Reading what is written

The text of a value over several lines spells the tokens of the value: a character of a string is
written as itself or as one of its escapes, and between the tokens there is nothing but line ends
and blanks. So the text is read as the value again, whatever white space stands behind it.
-/

namespace BranchSieve.Json

/-- A value whose strings are texts and whose numbers are number literals. -/
inductive IsPlain : Json → Prop where
  | null : IsPlain .null
  | bool (value : Bool) : IsPlain (.bool value)
  | number {text : List Char} (spells : SpellsNumber text) : IsPlain (.number text)
  | string (text : String) : IsPlain (.ofString text)
  | array {elements : List Json} (each : ∀ element ∈ elements, IsPlain element) :
      IsPlain (.array elements)
  | object {members : List (String × Json)} (each : ∀ member ∈ members, IsPlain member.2) :
      IsPlain (.ofMembers members)

variable {text rest body : List Char} {more : List Token} {points : List CodePoint}
  {value : Json} {level : Nat}

/-! ## Literals -/

/-- A number other than zero does not start with a zero. -/
theorem head?_toDigits_ne {n : Nat} (positive : 0 < n) : (Nat.toDigits 10 n).head? ≠ some '0' := by
  induction n using Nat.strongRecOn with
  | ind n ih =>
    by_cases small : n < 10
    · have digits : ∀ n < 10, 0 < n → Nat.digitChar n ≠ '0' := by decide
      rw [Nat.toDigits_of_lt_base small]
      exact fun zero => digits n small positive (Option.some.inj zero)
    · rw [Nat.toDigits_of_base_le (by decide) (Nat.not_lt.1 small),
        List.head?_append_of_ne_nil _ Nat.toDigits_ne_nil]
      exact ih (n / 10) (by omega) (by omega)

theorem spellsNumber_toDigits (n : Nat) : SpellsNumber (Nat.toDigits 10 n) := by
  have whole : IsWhole (Nat.toDigits 10 n) := by
    by_cases zero : n = 0
    · subst zero
      exact .inl rfl
    · exact .inr ⟨⟨Nat.toDigits_ne_nil, fun _ => Text.isDigit_of_mem_digits⟩,
        head?_toDigits_ne (Nat.pos_of_ne_zero zero)⟩
  simpa using SpellsNumber.intro (.inl rfl) whole (.inl rfl) (.inl rfl)

theorem isPlain_ofNat (n : Nat) : (ofNat n).IsPlain := .number (spellsNumber_toDigits n)

/-! ## Values -/

end BranchSieve.Json
