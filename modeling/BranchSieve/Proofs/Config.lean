import BranchSieve.Config
import BranchSieve.Proofs.Json.Reading
import Mathlib.Data.List.Basic

/-!
# What a configuration hinges on

Of the members of an object, only the two known ones have a say, wherever they stand and however
their text is spelled. A key that comes twice leaves no configuration, and neither does anything but
white space behind the object.
-/

namespace BranchSieve.Config

/-- The members that give the fields of a configuration, for those fields that are given. -/
def givenMembers (disabledFilters : Option (List String)) (parallel : Option Bool) :
    List (String × Json) :=
  (disabledFilters.map fun names => ("disabled_filters", .array (names.map .ofString))).toList ++
    (parallel.map fun value => ("parallel", .bool value)).toList

variable {members others : List (String × Json)} {key : String} {text : String}

theorem texts?_map_ofString (names : List String) :
    texts? (.array (names.map .ofString)) = some names := by
  have back : ∀ name, text? (.ofString name) = some name := CodePoint.text?_ofString
  exact mapM_map_eq_some back names

theorem named?_ofString (members : List (String × Json)) :
    named? (members.map fun (key, value) => (CodePoint.ofString key, value)) = some members :=
  mapM_map_eq_some (fun _ => by simp) members

theorem member?_of_filter_eq {α : Type} {read? : Json → Option α} {default : α}
    {given : Option Json} (found : members.filter (·.1 = key) = (given.map (key, ·)).toList) :
    member? members key read? default = given.elim (some default) read? := by
  rw [member?, found]
  cases given <;> rfl

/-- A key that comes twice gives no value. -/
theorem member?_eq_none {α : Type} {read? : Json → Option α} {default : α}
    (twice : 2 ≤ (members.filter (·.1 = key)).length) :
    member? members key read? default = none := by
  rw [member?]
  split
  · next found => simp [found] at twice
  · next found => simp [found] at twice
  · rfl

/-- At most one member with a key is left of a permutation of members of which one has it. -/
theorem filter_eq_of_perm {known : List (String × Json)} {given : Option Json}
    (order : members.Perm (known ++ others)) (unknown : ∀ member ∈ others, member.1 ≠ key)
    (found : known.filter (·.1 = key) = (given.map (key, ·)).toList) :
    members.filter (·.1 = key) = (given.map (key, ·)).toList := by
  have same := order.filter (·.1 = key)
  have none : others.filter (·.1 = key) = [] := by
    simpa [List.filter_eq_nil_iff] using unknown
  rw [List.filter_append, found, none, List.append_nil] at same
  cases given with
  | none => exact same.eq_nil
  | some value => exact List.perm_singleton.1 same

theorem ofJson?_ofMembers {disabledFilters : Option (List String)} {parallel : Option Bool}
    (order : members.Perm (givenMembers disabledFilters parallel ++ others))
    (unknown : ∀ member ∈ others, member.1 ≠ "disabled_filters" ∧ member.1 ≠ "parallel") :
    ofJson? (.ofMembers members) = some ⟨disabledFilters.getD [], parallel.getD false⟩ := by
  have names : members.filter (·.1 = "disabled_filters") =
      ((disabledFilters.map fun names => Json.array (names.map .ofString)).map
        ("disabled_filters", ·)).toList :=
    filter_eq_of_perm order (fun member mem => (unknown member mem).1) (by
      cases disabledFilters <;> cases parallel <;> simp [givenMembers])
  have flag : members.filter (·.1 = "parallel") =
      ((parallel.map Json.bool).map ("parallel", ·)).toList :=
    filter_eq_of_perm order (fun member mem => (unknown member mem).2) (by
      cases disabledFilters <;> cases parallel <;> simp [givenMembers])
  simp only [ofJson?, Json.ofMembers, named?_ofString, Option.bind_eq_bind, Option.bind_some,
    member?_of_filter_eq names, member?_of_filter_eq flag]
  cases disabledFilters <;> cases parallel <;> simp [texts?_map_ofString, bool?]

/-- An object in which a known key comes twice is no configuration. -/
theorem ofJson?_eq_none (known : key = "disabled_filters" ∨ key = "parallel")
    (twice : 2 ≤ (members.filter (·.1 = key)).length) : ofJson? (.ofMembers members) = none := by
  rcases known with rfl | rfl
  · simp [ofJson?, Json.ofMembers, named?_ofString, member?_eq_none twice]
  · simp [ofJson?, Json.ofMembers, named?_ofString, member?_eq_none twice]

/-- A text that spells an object with the known members and any others, in any order, is the
    configuration of the known ones. It is none any more with one of them given again, or with more
    than white space behind the object. -/
theorem parse?_of_known_members {disabledFilters : Option (List String)} {parallel : Option Bool}
    (order : members.Perm (givenMembers disabledFilters parallel ++ others))
    (unknown : ∀ member ∈ others, member.1 ≠ "disabled_filters" ∧ member.1 ≠ "parallel")
    (lexes : Json.Lexes text.toList (Json.ofMembers members).tokens) :
    parse? text = some ⟨disabledFilters.getD [], parallel.getD false⟩ ∧
    (∀ (key : String) (value : Json) (front back : List (String × Json)) (text' : String),
      (key = "disabled_filters" ∨ key = "parallel") → key ∈ members.map (·.1) →
      members = front ++ back →
      Json.Lexes text'.toList (Json.ofMembers (front ++ (key, value) :: back)).tokens →
      parse? text' = none) ∧
    ∀ rest : String, (∃ c ∈ rest.toList, Json.isSpace c = false) →
      parse? (text ++ rest) = none := by
  refine ⟨?_, ?_, ?_⟩
  · rw [parse?, Json.parse?_of_lexes lexes, Option.bind_some, ofJson?_ofMembers order unknown]
  · rintro key value front back text' known present rfl lexes'
    have twice : 2 ≤ ((front ++ (key, value) :: back).filter (·.1 = key)).length := by
      obtain ⟨member, mem, same⟩ := List.mem_map.1 present
      have one : member ∈ (front ++ back).filter (·.1 = key) :=
        List.mem_filter.2 ⟨mem, decide_eq_true same⟩
      have := List.length_pos_of_mem one
      simp only [List.filter_append, List.filter_cons_of_pos, decide_true, List.length_append,
        List.length_cons] at this ⊢
      omega
    rw [parse?, Json.parse?_of_lexes lexes', Option.bind_some, ofJson?_eq_none known twice]
  · intro rest more
    have closed : ∀ number, Json.ofMembers members ≠ .number number := fun _ => by
      simp [Json.ofMembers]
    rw [parse?, Json.parse?_append_eq_none lexes closed more, Option.bind_none]

/-- A member with nested values, a number and an escaped quote in front of a known member. -/
theorem parse?_of_nested_member :
    let body := "\"n\": [-1.5e3, \x7b\"a\\\"]\": null\x7d],\t\"parallel\": true\x7d"
    let others : List (String × Json) :=
      [("n", .array [.number "-1.5e3".toList, .ofMembers [("a\"]", .null)]])]
    let members := others ++ [("parallel", .bool true)]
    (members.Perm (givenMembers none (some true) ++ others) ∧
      (∀ member ∈ others, member.1 ≠ "disabled_filters" ∧ member.1 ≠ "parallel") ∧
      Json.Lexes ("\x7b" ++ body).toList (Json.ofMembers members).tokens) ∧
      parse? ("\x7b" ++ body) = some ⟨[], true⟩ ∧
      parse? ("\x7b\"parallel\":null," ++ body) = none ∧
      parse? ("\x7b" ++ body ++ " \x7d") = none := by
  intro body others members
  have order : members.Perm (givenMembers none (some true) ++ others) := List.Perm.swap _ _ _
  have unknown : ∀ member ∈ others, member.1 ≠ "disabled_filters" ∧ member.1 ≠ "parallel" := by
    decide
  have number : Json.SpellsNumber "-1.5e3".toList :=
    @Json.SpellsNumber.intro ['-'] ['1'] ['.', '5'] ['e', '3'] (.inr rfl)
      (.inr (by simp [Json.IsDigits])) (.inr ⟨['5'], rfl, by simp [Json.IsDigits]⟩)
      (.inr ⟨'e', [], ['3'], rfl, .inl rfl, .inl rfl, by simp [Json.IsDigits]⟩)
  have name : Json.SpellsPoints ['a', '\\', '"', ']'] (CodePoint.ofString "a\"]") :=
    .plain (by decide) (by decide) (.escape (by decide) (.plain (by decide) (by decide) .nil))
  have plain : ∀ name : String, (∀ c ∈ name.toList, (c ≠ '"' ∧ c ≠ '\\') ∧ 0x20 ≤ c.toNat) →
      Json.SpellsToken ('"' :: (name.toList ++ ['"'])) (.string (CodePoint.ofString name)) :=
    fun _ plain => .string (Json.spellsPoints_map_char plain)
  have comma : ∀ text, Json.EndsNumber (',' :: text) := by
    rintro text c ⟨⟩
    decide
  have blank : Json.isSpace ' ' = true := rfl
  have spelled := Json.Lexes.token (plain "n" (by simp)) nofun <| .token .colon nofun <|
    .space blank <| .token .openArray nofun <| .token (.number number) (fun _ _ => comma _) <|
    .token .comma nofun <| .space blank <| .token .openObject nofun <|
    .token (.string name) nofun <| .token .colon nofun <| .space blank <| .token .null nofun <|
    .token .closeObject nofun <| .token .closeArray nofun <| .token .comma nofun <|
    .space (rfl : Json.isSpace '\t' = true) <| .token (plain "parallel" (by simp)) nofun <|
    .token .colon nofun <| .space blank <| .token .isTrue nofun <| .token .closeObject nofun .nil
  have lexes : Json.Lexes ("\x7b" ++ body).toList (Json.ofMembers members).tokens :=
    (congrArg₂ Json.Lexes (by decide +kernel) (by decide +kernel)).mp
      (Json.Lexes.token .openObject nofun spelled)
  have lexes' : Json.Lexes ("\x7b\"parallel\":null," ++ body).toList
      (Json.ofMembers (("parallel", .null) :: members)).tokens :=
    (congrArg₂ Json.Lexes (by decide +kernel) (by decide +kernel)).mp
      (Json.Lexes.token .openObject nofun <| .token (plain "parallel" (by simp)) nofun <|
        .token .colon nofun <| .token .null nofun <| .token .comma nofun spelled)
  obtain ⟨read, twice, behind⟩ := parse?_of_known_members order unknown lexes
  exact ⟨⟨order, unknown, lexes⟩, read,
    twice "parallel" .null [] members _ (.inr rfl) (by decide) rfl lexes',
    behind " \x7d" ⟨'\x7d', by decide, rfl⟩⟩

end BranchSieve.Config
