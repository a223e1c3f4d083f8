import BranchSieve.Proofs.Listing.Run

/-!
# String literals

An operand of `LDC` that starts with a double quote is a string or nothing. Its last double quote
closes the literal, even where a backslash stands in front of it, so the body is known before any
escape is read. The body is then read from left to right: behind characters and escapes that spell a
text, the first backslash that starts no escape is the one that is told.
-/

namespace BranchSieve.Listing

variable {front body text : List Char} {c : Char} {fault : Text.Quoted.Fault}

/-- The body of a string literal is refused at its first bad backslash: the characters in front of
    it spell a text. -/
inductive RefusesText : List Char → Text.Quoted.Fault → Prop where
  | dangling {text : List Char} (front : List Char) (spells : SpellsText front text) :
      RefusesText (front ++ ['\\']) .danglingEscape
  | unknown {text rest : List Char} {c : Char} (front : List Char) (spells : SpellsText front text)
      (unknown : ∀ d, (c, d) ∉ escapes) :
      RefusesText (front ++ '\\' :: c :: rest) (.unknownEscape c)

theorem RefusesText.plain (bare : c ≠ '\\') (refuses : RefusesText body fault) :
    RefusesText (c :: body) fault := by
  cases refuses with
  | dangling front spells => exact .dangling (c :: front) (.plain bare spells)
  | unknown front spells unknown => exact .unknown (c :: front) (.plain bare spells) unknown

theorem RefusesText.escape {d : Char} (known : (c, d) ∈ escapes)
    (refuses : RefusesText body fault) : RefusesText ('\\' :: c :: body) fault := by
  cases refuses with
  | dangling front spells => exact .dangling ('\\' :: c :: front) (.escape known spells)
  | unknown front spells unknown =>
    exact .unknown ('\\' :: c :: front) (.escape known spells) unknown

/-- Reading goes on behind what spells a text. -/
theorem decode_append (spells : SpellsText front text) (rest : List Char) :
    Text.Quoted.decode (front ++ rest) = (Text.Quoted.decode rest).map (text ++ ·) := by
  induction spells with
  | nil =>
    rw [List.nil_append]
    cases Text.Quoted.decode rest <;> rfl
  | plain bare _ ih =>
    rw [List.cons_append, decode_cons bare, ih]
    cases Text.Quoted.decode rest <;> rfl
  | escape known _ ih =>
    rw [List.cons_append, List.cons_append, Text.Quoted.decode, escaped?_eq_some_iff.2 known, ih]
    cases Text.Quoted.decode rest <;> rfl

theorem escaped?_eq_none_iff : Text.Quoted.escaped? c = none ↔ ∀ d, (c, d) ∉ escapes := by
  simp only [Option.eq_none_iff_forall_ne_some, ne_eq, escaped?_eq_some_iff]

/-- A body is refused for the backslash that spoils it. -/
theorem decode_eq_error_iff :
    Text.Quoted.decode body = .error fault ↔ RefusesText body fault := by
  constructor
  · intro h
    fun_induction Text.Quoted.decode body with
    | case1 => cases h
    | case2 =>
      cases h
      exact .dangling [] .nil
    | case3 c rest unknown =>
      cases h
      exact .unknown [] .nil (escaped?_eq_none_iff.1 unknown)
    | case4 c rest d known ih =>
      exact (ih (map_eq_error_iff.1 h)).escape (escaped?_eq_some_iff.1 known)
    | case5 c rest notLast notEscape ih =>
      refine (ih (map_eq_error_iff.1 h)).plain fun slash => ?_
      cases rest with
      | nil => exact notLast slash rfl
      | cons d rest => exact notEscape d rest slash rfl
  · intro refuses
    cases refuses with
    | dangling front spells =>
      rw [decode_append spells, Text.Quoted.decode]
      rfl
    | unknown front spells unknown =>
      rw [decode_append spells, Text.Quoted.decode, escaped?_eq_none_iff.2 unknown]
      rfl

/-- What stands behind the opening quote is refused, in these words: for its missing end, and
    otherwise for its body. -/
inductive RefusesLiteral : List Char → Text.Quoted.Fault → String → Prop where
  | unterminated {afterQuote : List Char} (unclosed : ∀ body, afterQuote ≠ body ++ ['"']) :
      RefusesLiteral afterQuote .unterminated "unterminated string"
  | dangling {body : List Char} (refuses : RefusesText body .danglingEscape) :
      RefusesLiteral (body ++ ['"']) .danglingEscape "dangling escape"
  | unknown {body : List Char} {c : Char} (refuses : RefusesText body (.unknownEscape c)) :
      RefusesLiteral (body ++ ['"']) (.unknownEscape c) s!"unknown escape `\\{c}`"

theorem readAfterQuote_eq_error_iff {afterQuote : List Char} :
    Text.Quoted.readAfterQuote afterQuote = .error fault ↔
      ∃ words, RefusesLiteral afterQuote fault words := by
  unfold Text.Quoted.readAfterQuote
  by_cases closed : afterQuote.getLast? = some '"'
  · obtain ⟨body, rfl⟩ := List.getLast?_eq_some_iff.1 closed
    rw [if_pos closed, List.dropLast_concat, decode_eq_error_iff]
    constructor
    · intro refuses
      cases fault with
      | unterminated => cases refuses
      | danglingEscape => exact ⟨_, .dangling refuses⟩
      | unknownEscape c => exact ⟨_, .unknown refuses⟩
    · rintro ⟨words, refuses⟩
      generalize whole : body ++ ['"'] = afterQuote at refuses
      cases refuses with
      | unterminated unclosed => exact absurd whole.symm (unclosed body)
      | dangling refuses => rwa [List.append_cancel_right whole]
      | unknown refuses => rwa [List.append_cancel_right whole]
  · have unclosed : ∀ body, afterQuote ≠ body ++ ['"'] := by
      rintro body rfl
      exact closed List.getLast?_concat
    rw [if_neg closed]
    constructor
    · intro h
      cases h
      exact ⟨_, .unterminated unclosed⟩
    · rintro ⟨words, refuses⟩
      cases refuses with
      | unterminated => rfl
      | dangling => exact absurd rfl (unclosed _)
      | unknown => exact absurd rfl (unclosed _)

/-- What starts with a double quote is the string that its body spells, if it ends in another one
    and the body spells one. Otherwise the line is refused, for the missing quote or for the first
    bad backslash. -/
theorem check_readConstant_literal (line : Line) (afterQuote : List Char) :
    (∀ constant, line.check (readConstant ('"' :: afterQuote)) = .ok constant ↔
      ∃ body text, afterQuote = body ++ ['"'] ∧ SpellsText body text ∧
        constant = .string (String.ofList text)) ∧
    ∀ error, line.check (readConstant ('"' :: afterQuote)) = .error error ↔
      ∃ fault words, RefusesLiteral afterQuote fault words ∧ error = .atLine line (.literal fault) ∧
        error.message =
          s!"listing parse error at line {line.number}: {words} ⇒ `{line.text}`" := by
  have refused : ∀ fault, readConstant ('"' :: afterQuote) = .error fault ↔
      ∃ cause, Text.Quoted.readAfterQuote afterQuote = .error cause ∧ fault = .literal cause := by
    intro fault
    cases read : Text.Quoted.readAfterQuote afterQuote <;> simp [readConstant, read, eq_comm]
  refine ⟨fun constant => check_eq_ok_iff.trans readConstant_quoted, fun error => ?_⟩
  rw [check_eq_error_iff]
  constructor
  · rintro ⟨_, failed, rfl⟩
    obtain ⟨fault, read, rfl⟩ := (refused _).1 failed
    obtain ⟨words, refuses⟩ := readAfterQuote_eq_error_iff.1 read
    refine ⟨fault, words, refuses, rfl, ?_⟩
    cases refuses <;> rfl
  · rintro ⟨fault, words, refuses, rfl, -⟩
    exact ⟨_, (refused _).2 ⟨fault, readAfterQuote_eq_error_iff.2 ⟨words, refuses⟩, rfl⟩, rfl⟩

/-- Of three backslashes in front of the last quote, two are a pair and the third one stands
    alone. -/
example : Text.Quoted.readAfterQuote ['\\', '\\', '\\', '"'] = .error .danglingEscape := by decide

end BranchSieve.Listing
