import BranchSieve.Json.NumberLiteral
import BranchSieve.Json.StringLiteral

/-!
# Tokens of JSON

A text is cut into tokens before it is read as a value. White space separates tokens and is dropped.
A string token holds the code points that the literal stands for, and a number token keeps its text.
-/

namespace BranchSieve.Json

/-- A token. -/
inductive Token where
  | openObject
  | closeObject
  | openArray
  | closeArray
  | colon
  | comma
  | null
  | bool (value : Bool)
  | number (text : List Char)
  | string (points : List CodePoint)
  deriving DecidableEq, Repr

/-- Does the character separate tokens? -/
def isSpace (c : Char) : Bool :=
  c == ' ' || c == '\t' || c == '\n' || c == '\r'

/-- The token at the start of a text that does not start with white space, and the rest. -/
def token? : List Char → Option (Token × List Char)
  | '\x7b' :: cs => some (.openObject, cs)
  | '\x7d' :: cs => some (.closeObject, cs)
  | '[' :: cs => some (.openArray, cs)
  | ']' :: cs => some (.closeArray, cs)
  | ':' :: cs => some (.colon, cs)
  | ',' :: cs => some (.comma, cs)
  | 'n' :: 'u' :: 'l' :: 'l' :: cs => some (.null, cs)
  | 't' :: 'r' :: 'u' :: 'e' :: cs => some (.bool true, cs)
  | 'f' :: 'a' :: 'l' :: 's' :: 'e' :: cs => some (.bool false, cs)
  | '"' :: cs => (codePoints? cs).map fun (points, rest) => (.string points, rest)
  | cs => (number? cs).map fun (text, rest) => (.number text, rest)

theorem length_of_token? {text rest : List Char} {token : Token}
    (h : token? text = some (token, rest)) : rest.length < text.length := by
  unfold token? at h
  split at h
  case h_10 =>
    obtain ⟨⟨points, behind⟩, found, same⟩ := Option.map_eq_some_iff.1 h
    have := length_of_codePoints? found
    simp_all
    omega
  case h_11 =>
    obtain ⟨⟨number, behind⟩, found, same⟩ := Option.map_eq_some_iff.1 h
    obtain ⟨rfl, nonempty⟩ := append_of_number? found
    have := List.length_pos_iff.2 nonempty
    simp_all
  all_goals simp_all <;> omega

/-- The tokens of a text. -/
def tokens? (text : List Char) : Option (List Token) :=
  match text with
  | [] => some []
  | c :: cs =>
    if isSpace c then tokens? cs
    else
      match h : token? (c :: cs) with
      | none => none
      | some (token, rest) =>
        have := length_of_token? h
        (tokens? rest).map (token :: ·)
termination_by text.length
decreasing_by
  · exact Nat.lt_succ_self cs.length
  · exact this

end BranchSieve.Json
