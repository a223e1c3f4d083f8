import BranchSieve.Proofs.Listing.Grammar
import BranchSieve.Proofs.Result
import BranchSieve.Proofs.Text.Cuts
import BranchSieve.Proofs.Text.Numerals

/-!
# What an operand of `LDC` spells

The reader of a constant and the grammar agree. The forms are tried one after another, so an operand
of a later form has to be none of the earlier ones; its characters say so.
-/

namespace BranchSieve.Listing

theorem escaped?_eq_some_iff {c d : Char} : Text.Quoted.escaped? c = some d ↔ (c, d) ∈ escapes := by
  simp only [Text.Quoted.escaped?, escapes, List.mem_cons, Prod.mk.injEq, List.not_mem_nil,
    or_false]
  constructor
  · intro h
    split_ifs at h with quote slash feed tab
    · exact .inl ⟨quote, (Option.some.inj h).symm⟩
    · exact .inr (.inl ⟨slash, (Option.some.inj h).symm⟩)
    · exact .inr (.inr (.inl ⟨feed, (Option.some.inj h).symm⟩))
    · exact .inr (.inr (.inr ⟨tab, (Option.some.inj h).symm⟩))
  · rintro (⟨rfl, rfl⟩ | ⟨rfl, rfl⟩ | ⟨rfl, rfl⟩ | ⟨rfl, rfl⟩) <;> rfl

theorem decode_cons {c : Char} (bare : c ≠ '\\') (body : List Char) :
    Text.Quoted.decode (c :: body) = (Text.Quoted.decode body).map (c :: ·) := by
  rw [Text.Quoted.decode]
  · exact fun slash _ => bare slash
  · exact fun _ _ slash _ => bare slash

/-- A body is decoded to the text that it spells. -/
theorem decode_eq_ok_iff {body text : List Char} :
    Text.Quoted.decode body = .ok text ↔ SpellsText body text := by
  constructor
  · intro h
    fun_induction Text.Quoted.decode body generalizing text with
    | case1 =>
      simp only [Except.ok.injEq] at h
      subst h
      exact .nil
    | case2 => simp at h
    | case3 c body unknown => simp at h
    | case4 c body d known ih =>
      obtain ⟨rest, decoded, rfl⟩ := map_eq_ok_iff.1 h
      exact .escape (escaped?_eq_some_iff.1 known) (ih decoded)
    | case5 c body notLast notEscape ih =>
      obtain ⟨rest, decoded, rfl⟩ := map_eq_ok_iff.1 h
      refine .plain (fun slash => ?_) (ih decoded)
      cases body with
      | nil => exact notLast slash rfl
      | cons d body => exact notEscape d body slash rfl
  · intro h
    induction h with
    | nil => rfl
    | plain bare _ ih =>
      rw [decode_cons bare, ih]
      rfl
    | escape known _ ih =>
      rw [Text.Quoted.decode, escaped?_eq_some_iff.2 known, ih]
      rfl

theorem readNumber_eq_ok_iff {α : Type} {read? : List Char → Option α} {token : List Char}
    {number : α} : readNumber read? token = .ok number ↔ read? token = some number := by
  unfold readNumber
  cases read? token <;> simp

theorem readAfterQuote_eq_ok_iff {afterQuote text : List Char} :
    Text.Quoted.readAfterQuote afterQuote = .ok text ↔
      ∃ body, afterQuote = body ++ ['"'] ∧ SpellsText body text := by
  unfold Text.Quoted.readAfterQuote
  constructor
  · intro h
    split at h
    · next closed =>
      obtain ⟨body, rfl⟩ := List.getLast?_eq_some_iff.1 closed
      exact ⟨body, rfl, decode_eq_ok_iff.1 (by simpa using h)⟩
    · simp at h
  · intro given
    rcases given with ⟨body, rfl, spells⟩
    simp [decode_eq_ok_iff.2 spells]

theorem readConstant_quoted {afterQuote : List Char} {constant : Constant} :
    readConstant ('"' :: afterQuote) = .ok constant ↔
      ∃ body text, afterQuote = body ++ ['"'] ∧ SpellsText body text ∧
        constant = .string (String.ofList text) := by
  cases read : Text.Quoted.readAfterQuote afterQuote with
  | ok text =>
    have literal : readConstant ('"' :: afterQuote) = .ok (.string (String.ofList text)) := by
      simp only [readConstant, read]
    rw [literal, Except.ok.injEq]
    constructor
    · intro equal
      subst equal
      obtain ⟨body, split, spells⟩ := readAfterQuote_eq_ok_iff.1 read
      exact ⟨body, text, split, spells, rfl⟩
    · intro h
      rcases h with ⟨body, other, split, spells, rfl⟩
      have same := read.symm.trans (readAfterQuote_eq_ok_iff.2 ⟨body, split, spells⟩)
      rw [Except.ok.inj same]
  | error fault =>
    have literal : readConstant ('"' :: afterQuote) = .error (.literal fault) := by
      simp only [readConstant, read]
    rw [literal]
    apply iff_of_false (by simp)
    intro h
    rcases h with ⟨body, text, split, spells, -⟩
    have same := read.symm.trans (readAfterQuote_eq_ok_iff.2 ⟨body, split, spells⟩)
    cases same

theorem readConstant_bare {text : List Char} (bare : text.head? ≠ some '"') :
    readConstant text =
      match Text.beforeEnding? ".class".toList text with
      | some descriptor => .ok (.type (String.ofList descriptor))
      | none => readNumericConstant text := by
  unfold readConstant
  split
  · simp at bare
  · rfl

/-- A text without a character has no ending with it. -/
theorem beforeEnding?_eq_none_of_all {p : Char → Bool} {text : List Char}
    (h : ∀ c ∈ text, p c = true) (ending : List Char) (other : ∃ c ∈ ending, p c = false) :
    Text.beforeEnding? ending text = none := by
  obtain ⟨c, mem, differs⟩ := other
  refine Text.beforeEnding?_eq_none_iff.2 fun suffix => ?_
  simp [h c (suffix.subset mem)] at differs

/-- A text has one last character. -/
theorem beforeEnding?_eq_none_of_getLast? {text : List Char} {c d : Char}
    (last : text.getLast? = some c) (other : c ≠ d) (front : List Char) :
    Text.beforeEnding? (front ++ [d]) text = none := by
  refine Text.beforeEnding?_eq_none_iff.2 ?_
  intro h
  rcases h with ⟨before, rfl⟩
  rw [← List.append_assoc, List.getLast?_concat, Option.some.injEq] at last
  exact other last.symm

theorem head?_ne_of_all {p : Char → Bool} {text : List Char} {c : Char}
    (h : ∀ c ∈ text, p c = true) (other : p c = false) : text.head? ≠ some c := by
  intro first
  simp [h c (List.mem_of_mem_head? first)] at other

/-- An integer has no form of a double. -/
theorem isDoubleForm_of_integer {text : List Char}
    (digit : ∀ c ∈ text, Text.isIntegerChar c = true) : isDoubleForm text = false := by
  have noPoint : (text.any fun c => c == '.' || c == 'E' || c == 'e') = false := by
    apply List.any_eq_false.2
    intro c mem mark
    have isDigit := digit c mem
    simp only [Bool.or_eq_true, beq_iff_eq] at mark
    rcases mark with (rfl | rfl) | rfl <;> simp [Text.isIntegerChar] at isDigit
  have noName : text ≠ "NaN".toList := by
    intro same
    subst same
    exact absurd (digit 'N' (by decide)) (by decide)
  have noInfinity :=
    beforeEnding?_eq_none_of_all digit "Infinity".toList ⟨'y', by decide, by decide⟩
  rw [Text.beforeEnding?_eq_none_iff, ← List.isSuffixOf_iff_suffix] at noInfinity
  simp only [isDoubleForm, noPoint, beq_false_of_ne noName, Bool.or_false, Bool.false_or]
  exact Bool.eq_false_iff.2 noInfinity

section Constants

variable {text digits : List Char} {constant : Constant}

/-- What is read by its last character and its form is spelled so. -/
theorem spellsConstant_of_readNumericConstant (h : readNumericConstant text = .ok constant) :
    SpellsConstant text constant := by
  unfold readNumericConstant at h
  split at h
  · next digits ending =>
    obtain ⟨value, read, rfl⟩ := map_eq_ok_iff.1 h
    obtain rfl := Text.beforeEnding?_eq_some_iff.1 ending
    exact .long (readNumber_eq_ok_iff.1 read)
  · split at h
    · next digits ending =>
      obtain ⟨bits, read, rfl⟩ := map_eq_ok_iff.1 h
      obtain rfl := Text.beforeEnding?_eq_some_iff.1 ending
      exact .float (readNumber_eq_ok_iff.1 read)
    · next noFloat =>
      split at h
      · next form =>
        obtain ⟨bits, read, rfl⟩ := map_eq_ok_iff.1 h
        refine .double form (fun last => ?_) (readNumber_eq_ok_iff.1 read)
        obtain ⟨front, rfl⟩ := List.getLast?_eq_some_iff.1 last
        exact Text.beforeEnding?_eq_none_iff.1 noFloat (List.suffix_append _ _)
      · obtain ⟨value, read, rfl⟩ := map_eq_ok_iff.1 h
        exact .int (readNumber_eq_ok_iff.1 read)

theorem spellsConstant_of_readConstant (h : readConstant text = .ok constant) :
    SpellsConstant text constant := by
  by_cases quoted : text.head? = some '"'
  · obtain ⟨afterQuote, rfl⟩ := List.head?_eq_some_iff.1 quoted
    obtain ⟨body, text, rfl, spells, rfl⟩ := readConstant_quoted.1 h
    exact .string spells
  · rw [readConstant_bare quoted] at h
    split at h
    · next descriptor ending =>
      rw [← Except.ok.inj h]
      obtain rfl := Text.beforeEnding?_eq_some_iff.1 ending
      refine .type fun first => quoted ?_
      rw [List.head?_append, first]
      rfl
    · exact spellsConstant_of_readNumericConstant h

/-- A text that neither starts like a string nor ends like a type is read as a number. -/
theorem readConstant_numeric (bare : text.head? ≠ some '"')
    (noClass : Text.beforeEnding? ".class".toList text = none) :
    readConstant text = readNumericConstant text := by
  rw [readConstant_bare bare, noClass]

theorem readConstant_long {value : Int64} (number : Text.int64? digits = some value) :
    readConstant (digits ++ ['L']) = .ok (.long value) := by
  obtain ⟨nonempty, digit⟩ := Text.all_isIntegerChar_of_int64? number
  have bare : (digits ++ ['L']).head? ≠ some '"' := by
    rw [List.head?_append_of_ne_nil _ nonempty]
    exact head?_ne_of_all digit (by decide)
  have noClass : Text.beforeEnding? ".class".toList (digits ++ ['L']) = none :=
    beforeEnding?_eq_none_of_getLast? List.getLast?_concat (by decide) ".clas".toList
  have ending : Text.beforeEnding? ['L'] (digits ++ ['L']) = some digits :=
    Text.beforeEnding?_eq_some_iff.2 rfl
  rw [readConstant_numeric bare noClass, readNumericConstant, ending]
  exact map_eq_ok_iff.2 ⟨value, readNumber_eq_ok_iff.2 number, rfl⟩

theorem readConstant_float {bits : Nat}
    (number : BinaryFormat.single.read? digits = some bits) :
    readConstant (digits ++ ['F']) = .ok (.float (.ofNat bits)) := by
  obtain ⟨nonempty, literal⟩ := BinaryFormat.all_isLiteralChar number
  have bare : (digits ++ ['F']).head? ≠ some '"' := by
    rw [List.head?_append_of_ne_nil _ nonempty]
    exact head?_ne_of_all literal (by decide)
  have noClass : Text.beforeEnding? ".class".toList (digits ++ ['F']) = none :=
    beforeEnding?_eq_none_of_getLast? List.getLast?_concat (by decide) ".clas".toList
  have noLong : Text.beforeEnding? ['L'] (digits ++ ['F']) = none :=
    beforeEnding?_eq_none_of_getLast? List.getLast?_concat (by decide) []
  have ending : Text.beforeEnding? ['F'] (digits ++ ['F']) = some digits :=
    Text.beforeEnding?_eq_some_iff.2 rfl
  rw [readConstant_numeric bare noClass, readNumericConstant, noLong, ending]
  exact map_eq_ok_iff.2 ⟨bits, readNumber_eq_ok_iff.2 number, rfl⟩

theorem readConstant_double {bits : Nat} (form : isDoubleForm text = true)
    (bare : text.getLast? ≠ some 'F') (number : BinaryFormat.double.read? text = some bits) :
    readConstant text = .ok (.double (.ofNat bits)) := by
  obtain ⟨nonempty, literal⟩ := BinaryFormat.all_isLiteralChar number
  have noClass := beforeEnding?_eq_none_of_all literal ".class".toList ⟨'s', by decide, by decide⟩
  have noLong := beforeEnding?_eq_none_of_all literal ['L'] ⟨'L', by decide, by decide⟩
  have noFloat : Text.beforeEnding? ['F'] text = none := by
    refine Text.beforeEnding?_eq_none_iff.2 ?_
    intro h
    rcases h with ⟨front, rfl⟩
    exact bare List.getLast?_concat
  rw [readConstant_numeric (head?_ne_of_all literal (by decide)) noClass, readNumericConstant,
    noLong, noFloat, form]
  exact map_eq_ok_iff.2 ⟨bits, readNumber_eq_ok_iff.2 number, rfl⟩

theorem readConstant_int {value : Int32} (number : Text.int32? text = some value) :
    readConstant text = .ok (.int value) := by
  obtain ⟨nonempty, digit⟩ := Text.all_isIntegerChar_of_int32? number
  have noClass := beforeEnding?_eq_none_of_all digit ".class".toList ⟨'s', by decide, by decide⟩
  have noLong := beforeEnding?_eq_none_of_all digit ['L'] ⟨'L', by decide, by decide⟩
  have noFloat := beforeEnding?_eq_none_of_all digit ['F'] ⟨'F', by decide, by decide⟩
  rw [readConstant_numeric (head?_ne_of_all digit (by decide)) noClass, readNumericConstant,
    noLong, noFloat, isDoubleForm_of_integer digit]
  exact map_eq_ok_iff.2 ⟨value, readNumber_eq_ok_iff.2 number, rfl⟩

/-- An operand of `LDC` is read as the constant that it spells. -/
theorem readConstant_eq_ok_iff :
    readConstant text = .ok constant ↔ SpellsConstant text constant := by
  constructor
  · exact spellsConstant_of_readConstant
  · intro h
    cases h with
    | string spells => exact readConstant_quoted.2 ⟨_, _, rfl, spells, rfl⟩
    | @type descriptor bare =>
      have unquoted : (descriptor ++ ".class".toList).head? ≠ some '"' := by
        cases descriptor with
        | nil => simp
        | cons c descriptor => simpa using bare
      rw [readConstant_bare unquoted, Text.beforeEnding?_eq_some_iff.2 rfl]
    | long number => exact readConstant_long number
    | float number => exact readConstant_float number
    | double form bare number => exact readConstant_double form bare number
    | int number => exact readConstant_int number

end Constants

end BranchSieve.Listing
