import BranchSieve.Json.Reader
import BranchSieve.Proofs.Json.Lexing

/-!
# Reading the tokens of a value

The tokens of a value are its written form without regard to white space and to the spelling of
literals. From any state that waits for a value, they lead to the state that has got this value,
with the same frames around it; so what is read does not hinge on how deep values nest. A text that
spells the tokens of a value is read as this value, and with more than white space behind it as
none.
-/

namespace BranchSieve.Json

mutual

/-- The tokens of a value. -/
def tokens : Json → List Token
  | .null => [.null]
  | .bool value => [.bool value]
  | .number text => [.number text]
  | .string points => [.string points]
  | .array [] => [.openArray, .closeArray]
  | .array (element :: elements) =>
    .openArray :: (tokens element ++ (elementTokens elements ++ [.closeArray]))
  | .object [] => [.openObject, .closeObject]
  | .object ((key, value) :: members) =>
    .openObject :: .string key :: .colon ::
      (tokens value ++ (memberTokens members ++ [.closeObject]))

/-- The tokens of the elements behind the first one. -/
def elementTokens : List Json → List Token
  | [] => []
  | element :: elements => .comma :: (tokens element ++ elementTokens elements)

/-- The tokens of the members behind the first one. -/
def memberTokens : List (List CodePoint × Json) → List Token
  | [] => []
  | (key, value) :: members =>
    .comma :: .string key :: .colon :: (tokens value ++ memberTokens members)

end

namespace Reading

/-- No value starts with the end of an array. -/
theorem foldlM_wantElement (value : Json) (more : List Token) (frames : List Frame) :
    (value.tokens ++ more).foldlM step? (.wantElement frames) =
      (value.tokens ++ more).foldlM step? (.wantValue (.array [] :: frames)) := by
  cases value with
  | array elements => cases elements <;> rw [tokens] <;> rfl
  | object members =>
    cases members with
    | nil => rw [tokens]; rfl
    | cons member members => rw [tokens]; rfl
  | _ => rw [tokens]; rfl

mutual

/-- The tokens of a value lead from the wait for it to the value, in any frames. -/
theorem foldlM_tokens (frames : List Frame) (more : List Token) : (value : Json) →
    (value.tokens ++ more).foldlM step? (.wantValue frames) =
      more.foldlM step? (.gotValue frames value)
  | .null | .bool _ | .number _ | .string _ | .array [] | .object [] => by rw [tokens]; rfl
  | .array (element :: elements) => by
    have opened : step? (.wantValue frames) .openArray = some (.wantElement frames) := rfl
    rw [tokens, List.cons_append, List.foldlM_cons, opened, Option.bind_eq_bind, Option.bind_some,
      List.append_assoc, foldlM_wantElement, foldlM_tokens, List.append_assoc,
      List.singleton_append, foldlM_elementTokens]
    rfl
  | .object ((key, value) :: members) => by
    have opened : step? (.wantValue frames) .openObject = some (.wantMember frames) := rfl
    have named : step? (.wantMember frames) (.string key) = some (.wantColon frames [] key) := rfl
    have ready : step? (.wantColon frames [] key) .colon =
      some (.wantValue (.object [] key :: frames)) := rfl
    simp only [tokens, List.cons_append, List.foldlM_cons, opened, named, ready,
      Option.bind_eq_bind, Option.bind_some, List.append_assoc]
    rw [foldlM_tokens, List.nil_append, foldlM_memberTokens]
    rfl

/-- The tokens of further elements and the end of their array lead to the whole array. -/
theorem foldlM_elementTokens (frames : List Frame) (more : List Token) (done : List Json)
    (value : Json) : (elements : List Json) →
    (elementTokens elements ++ .closeArray :: more).foldlM step?
        (.gotValue (.array done :: frames) value) =
      more.foldlM step? (.gotValue frames (.array (done.reverse ++ value :: elements)))
  | [] => by
    rw [elementTokens, ← List.reverse_cons]
    rfl
  | element :: elements => by
    have next : step? (.gotValue (.array done :: frames) value) .comma =
      some (.wantValue (.array (value :: done) :: frames)) := rfl
    rw [elementTokens, List.cons_append, List.foldlM_cons, next, Option.bind_eq_bind,
      Option.bind_some, List.append_assoc, foldlM_tokens, foldlM_elementTokens,
      List.reverse_cons, List.append_assoc, List.singleton_append]

/-- The tokens of further members and the end of their object lead to the whole object. -/
theorem foldlM_memberTokens (frames : List Frame) (more : List Token)
    (done : List (List CodePoint × Json)) (key : List CodePoint) (value : Json) :
    (members : List (List CodePoint × Json)) →
    (memberTokens members ++ .closeObject :: more).foldlM step?
        (.gotValue (.object done key :: frames) value) =
      more.foldlM step? (.gotValue frames (.object (done.reverse ++ (key, value) :: members)))
  | [] => by
    rw [memberTokens, ← List.reverse_cons]
    rfl
  | (key', value') :: members => by
    have next : step? (.gotValue (.object done key :: frames) value) .comma =
      some (.wantKey frames ((key, value) :: done)) := rfl
    have named : step? (.wantKey frames ((key, value) :: done)) (.string key') =
      some (.wantColon frames ((key, value) :: done) key') := rfl
    have ready : step? (.wantColon frames ((key, value) :: done) key') .colon =
      some (.wantValue (.object ((key, value) :: done) key' :: frames)) := rfl
    simp only [memberTokens, List.cons_append, List.foldlM_cons, next, named, ready,
      Option.bind_eq_bind, Option.bind_some, List.append_assoc]
    rw [foldlM_tokens, foldlM_memberTokens, List.reverse_cons, List.append_assoc,
      List.singleton_append]

end

/-- Nothing may follow a value that no frame encloses. -/
theorem step?_gotValue_nil (value : Json) (token : Token) :
    step? (.gotValue [] value) token = none := by
  cases token <;> rfl

end Reading

variable {text : String} {value : Json}

/-- A text that spells the tokens of a value is read as this value. -/
theorem parse?_of_lexes (lexes : Lexes text.toList value.tokens) : parse? text = some value := by
  have cut : tokens? text.toList = some value.tokens := by
    have ends : EndsNumber [] := fun _ none => by cases none
    have := lexes.tokens?_append fun _ _ => ends
    simpa [tokens?] using this
  have read := Reading.foldlM_tokens [] [] value
  rw [List.append_nil] at read
  rw [parse?, cut, Option.bind_eq_bind, Option.bind_some, read]
  rfl

/-- Only white space has no tokens. -/
theorem isSpace_of_tokens?_eq_nil {text : List Char} (none : tokens? text = some []) :
    ∀ c ∈ text, isSpace c = true := by
  induction text with
  | nil => simp
  | cons c text ih =>
    cases space : isSpace c with
    | true =>
      rw [tokens?_space space] at none
      simpa [space] using ih none
    | false =>
      rw [tokens?, if_neg (by simp [space])] at none
      split at none
      · cases none
      · simp at none

/-- Behind the last token of an array or an object no number goes on. -/
theorem eq_number_of_getLast?_tokens {number : List Char}
    (last : value.tokens.getLast? = some (.number number)) : value = .number number := by
  cases value with
  | array elements =>
    cases elements <;> simp [tokens, List.getLast?_cons] at last
  | object members =>
    cases members with
    | nil => simp [tokens] at last
    | cons member members => simp [tokens, List.getLast?_cons] at last
  | _ => simp_all [tokens]

/-- A text with more than white space behind an array or an object is no value. -/
theorem parse?_append_eq_none {rest : String} (lexes : Lexes text.toList value.tokens)
    (closed : ∀ number, value ≠ .number number)
    (more : ∃ c ∈ rest.toList, isSpace c = false) : parse? (text ++ rest) = none := by
  have cut : tokens? (text ++ rest).toList =
      (tokens? rest.toList).map (value.tokens ++ ·) := by
    rw [String.toList_append]
    exact lexes.tokens?_append fun number last =>
      absurd (eq_number_of_getLast?_tokens last) (closed number)
  cases behind : tokens? rest.toList with
  | none =>
    rw [parse?, cut, behind]
    rfl
  | some tokens =>
    cases tokens with
    | nil =>
      obtain ⟨c, mem, visible⟩ := more
      rw [isSpace_of_tokens?_eq_nil behind c mem] at visible
      cases visible
    | cons token tokens =>
      have read := Reading.foldlM_tokens [] (token :: tokens) value
      rw [List.foldlM_cons, Reading.step?_gotValue_nil] at read
      rw [parse?, cut, behind, Option.map_some, Option.bind_eq_bind, Option.bind_some, read]
      rfl

end BranchSieve.Json
