import BranchSieve.Json.Token
import Mathlib.Data.List.Basic

/-!
# The spelling of JSON tokens

What a text of tokens is, said without a reader: literals spell tokens, and any white space may
stand between two tokens. A number ends where the next character cannot go on with it. A text that
spells tokens is cut into these tokens, also if more text stands behind it.
-/

namespace BranchSieve.Json

/-- Some digits. -/
def IsDigits (text : List Char) : Prop := text ≠ [] ∧ ∀ c ∈ text, c.isDigit = true

/-- The whole part of a number, without needless zeros. -/
def IsWhole (text : List Char) : Prop :=
  text = ['0'] ∨ IsDigits text ∧ text.head? ≠ some '0'

/-- The fraction of a number, or none. -/
def IsFraction (text : List Char) : Prop :=
  text = [] ∨ ∃ digits, text = '.' :: digits ∧ IsDigits digits

/-- The power of ten of a number, or none. -/
def IsPower (text : List Char) : Prop :=
  text = [] ∨ ∃ mark sign digits, text = mark :: (sign ++ digits) ∧ (mark = 'e' ∨ mark = 'E') ∧
    (sign = [] ∨ sign = ['+'] ∨ sign = ['-']) ∧ IsDigits digits

/-- A number literal. Only its whole part has to be there. -/
inductive SpellsNumber : List Char → Prop where
  | intro {sign whole fraction power : List Char} (signed : sign = [] ∨ sign = ['-'])
      (isWhole : IsWhole whole) (isFraction : IsFraction fraction) (isPower : IsPower power) :
      SpellsNumber (sign ++ whole ++ fraction ++ power)

/-- The characters behind a backslash that stand for one character, with that character. -/
def escapes : List (Char × Char) :=
  [('"', '"'), ('\\', '\\'), ('/', '/'), ('b', '\x08'), ('f', '\x0c'), ('n', '\n'), ('r', '\r'),
   ('t', '\t')]

/-- The body of a string literal spells code points. -/
inductive SpellsPoints : List Char → List CodePoint → Prop where
  | nil : SpellsPoints [] []
  | plain {c : Char} {body : List Char} {points : List CodePoint} (bare : c ≠ '"' ∧ c ≠ '\\')
      (visible : 0x20 ≤ c.toNat) (rest : SpellsPoints body points) :
      SpellsPoints (c :: body) (.char c :: points)
  | escape {c d : Char} {body : List Char} {points : List CodePoint} (known : (c, d) ∈ escapes)
      (rest : SpellsPoints body points) : SpellsPoints ('\\' :: c :: body) (.char d :: points)
  /-- A unit of UTF-16 that is a character by itself. -/
  | unit {a b c d : Char} {unit : Nat} {body : List Char} {points : List CodePoint}
      (hex : hexUnit? a b c d = some unit)
      (whole : isHighSurrogate unit = false ∧ isLowSurrogate unit = false)
      (rest : SpellsPoints body points) :
      SpellsPoints ('\\' :: 'u' :: a :: b :: c :: d :: body) (.char (Char.ofNat unit) :: points)
  /-- Two units that are a pair. -/
  | pair {a b c d a' b' c' d' : Char} {high low : Nat} {body : List Char} {points : List CodePoint}
      (hex : hexUnit? a b c d = some high) (first : isHighSurrogate high = true)
      (hex' : hexUnit? a' b' c' d' = some low) (second : isLowSurrogate low = true)
      (rest : SpellsPoints body points) :
      SpellsPoints ('\\' :: 'u' :: a :: b :: c :: d :: '\\' :: 'u' :: a' :: b' :: c' :: d' :: body)
        (.char (ofSurrogates high low) :: points)
  /-- Half of a pair, which is not the first of one with what stands behind it. -/
  | half {a b c d : Char} {unit : Nat} {body : List Char} {points : List CodePoint}
      (hex : hexUnit? a b c d = some unit)
      (alone : isLowSurrogate unit = true ∨
        isHighSurrogate unit = true ∧ lowSurrogate? body = none)
      (rest : SpellsPoints body points) :
      SpellsPoints ('\\' :: 'u' :: a :: b :: c :: d :: body) (.surrogate unit :: points)

/-- A literal spells a token. -/
inductive SpellsToken : List Char → Token → Prop where
  | openObject : SpellsToken ['\x7b'] .openObject
  | closeObject : SpellsToken ['\x7d'] .closeObject
  | openArray : SpellsToken ['['] .openArray
  | closeArray : SpellsToken [']'] .closeArray
  | colon : SpellsToken [':'] .colon
  | comma : SpellsToken [','] .comma
  | null : SpellsToken "null".toList .null
  | isTrue : SpellsToken "true".toList (.bool true)
  | isFalse : SpellsToken "false".toList (.bool false)
  | number {text : List Char} (spells : SpellsNumber text) : SpellsToken text (.number text)
  | string {body : List Char} {points : List CodePoint} (spells : SpellsPoints body points) :
      SpellsToken ('"' :: (body ++ ['"'])) (.string points)

/-- No character at the start of the text goes on with a number. -/
def EndsNumber (text : List Char) : Prop :=
  ∀ c, text.head? = some c → c.isDigit = false ∧ c ≠ '.' ∧ c ≠ 'e' ∧ c ≠ 'E'

/-- A text spells tokens, with any white space between them. -/
inductive Lexes : List Char → List Token → Prop where
  | nil : Lexes [] []
  | space {c : Char} {text : List Char} {tokens : List Token} (isSpace : isSpace c = true)
      (rest : Lexes text tokens) : Lexes (c :: text) tokens
  | token {word text : List Char} {token : Token} {tokens : List Token}
      (spells : SpellsToken word token) (ends : ∀ number, token = .number number → EndsNumber text)
      (rest : Lexes text tokens) : Lexes (word ++ text) (token :: tokens)

variable {text word rest : List Char} {token : Token} {tokens : List Token}

/-! ## Numbers -/

theorem EndsNumber.append (ends : EndsNumber text) (nonempty : text ≠ []) (rest : List Char) :
    EndsNumber (text ++ rest) := by
  obtain ⟨c, text, rfl⟩ := List.exists_cons_of_ne_nil nonempty
  exact ends

/-- A text is taken up to its end as digits if what follows starts with none. -/
theorem digits?_append (digits : IsDigits text)
    (ends : ∀ c, rest.head? = some c → c.isDigit = false) :
    digits? (text ++ rest) = some (text, rest) := by
  have stops : rest.takeWhile Char.isDigit = [] ∧ rest.dropWhile Char.isDigit = rest := by
    cases rest with
    | nil => exact ⟨rfl, rfl⟩
    | cons c rest => simp [ends c rfl]
  have whole : (text ++ rest).takeWhile Char.isDigit = text := by
    rw [List.takeWhile_append_of_pos digits.2, stops.1, List.append_nil]
  rw [digits?, whole, List.dropWhile_append_of_pos digits.2, stops.2]
  exact if_neg digits.1

theorem IsDigits.exists_cons (digits : IsDigits text) :
    ∃ c cs, text = c :: cs ∧ c.isDigit = true := by
  obtain ⟨c, cs, rfl⟩ := List.exists_cons_of_ne_nil digits.1
  exact ⟨c, cs, rfl, digits.2 c List.mem_cons_self⟩

theorem IsWhole.exists_cons (whole : IsWhole text) :
    ∃ c cs, text = c :: cs ∧ c.isDigit = true := by
  rcases whole with rfl | ⟨digits, -⟩
  · exact ⟨'0', [], rfl, rfl⟩
  · exact digits.exists_cons

/-- A number starts with a sign or a digit. -/
theorem SpellsNumber.exists_cons (spells : SpellsNumber text) :
    ∃ c cs, text = c :: cs ∧ (c = '-' ∨ c.isDigit = true) := by
  obtain ⟨rfl | rfl, isWhole, -, -⟩ := spells
  · obtain ⟨c, cs, rfl, digit⟩ := isWhole.exists_cons
    exact ⟨c, _, rfl, .inr digit⟩
  · exact ⟨'-', _, rfl, .inl rfl⟩

theorem whole?_append (isWhole : IsWhole text)
    (ends : ∀ c, rest.head? = some c → c.isDigit = false) :
    whole? (text ++ rest) = some (text, rest) := by
  rcases isWhole with rfl | ⟨digits, start⟩
  · rfl
  · obtain ⟨c, text, rfl⟩ := List.exists_cons_of_ne_nil digits.1
    have notZero : c ≠ '0' := fun same => start (congrArg some same)
    unfold whole?
    split
    · next same => exact absurd (List.cons.inj same).1 notZero
    · exact digits?_append digits ends

theorem fraction?_append (isFraction : IsFraction text)
    (ends : ∀ c, rest.head? = some c → c.isDigit = false ∧ c ≠ '.') :
    fraction? (text ++ rest) = some (text, rest) := by
  rcases isFraction with rfl | ⟨digits, rfl, isDigits⟩
  · unfold fraction?
    split
    · next cs same => exact absurd rfl (ends '.' (by rw [← List.nil_append rest, same]; rfl)).2
    · rfl
  · rw [List.cons_append, fraction?, digits?_append isDigits fun c first => (ends c first).1]
    rfl

theorem power?_append (isPower : IsPower text) (ends : EndsNumber rest) :
    power? (text ++ rest) = some (text, rest) := by
  rcases isPower with rfl | ⟨mark, sign, digits, rfl, isMark, isSign, isDigits⟩
  · cases rest with
    | nil => rfl
    | cons c rest =>
      obtain ⟨-, -, notMark, notMark'⟩ := ends c rfl
      simp [power?, notMark, notMark']
  · have signed : powerSign (sign ++ (digits ++ rest)) = (sign, digits ++ rest) := by
      rcases isSign with rfl | rfl | rfl
      · obtain ⟨c, digits, rfl, digit⟩ := isDigits.exists_cons
        unfold powerSign
        split
        · next same => rw [(List.cons.inj same).1] at digit; cases digit
        · next same => rw [(List.cons.inj same).1] at digit; cases digit
        · rfl
      · rfl
      · rfl
    have split := digits?_append isDigits fun c first => (ends c first).1
    rw [List.cons_append, List.append_assoc]
    simp [power?, isMark, signed, split]

/-- Neither a digit nor a point follows a fraction. -/
theorem IsPower.head?_append (isPower : IsPower text) (ends : EndsNumber rest) :
    ∀ c, (text ++ rest).head? = some c → c.isDigit = false ∧ c ≠ '.' := by
  rcases isPower with rfl | ⟨mark, sign, digits, rfl, isMark, -⟩
  · exact fun c first => ⟨(ends c first).1, (ends c first).2.1⟩
  · rintro c ⟨⟩
    rcases isMark with rfl | rfl <;> decide

/-- No digit follows a whole part. -/
theorem IsFraction.head?_append (isFraction : IsFraction text)
    (ends : ∀ c, rest.head? = some c → c.isDigit = false ∧ c ≠ '.') :
    ∀ c, (text ++ rest).head? = some c → c.isDigit = false := by
  rcases isFraction with rfl | ⟨digits, rfl, -⟩
  · exact fun c first => (ends c first).1
  · rintro c ⟨⟩
    rfl

theorem magnitude?_append {whole fraction power : List Char} (isWhole : IsWhole whole)
    (isFraction : IsFraction fraction) (isPower : IsPower power) (ends : EndsNumber rest) :
    magnitude? (whole ++ (fraction ++ (power ++ rest))) =
      some (whole ++ fraction ++ power, rest) := by
  have powerStart := isPower.head?_append ends
  have fractionStart := isFraction.head?_append powerStart
  simp [magnitude?, whole?_append isWhole fractionStart, fraction?_append isFraction powerStart,
    power?_append isPower ends]

theorem number?_append (spells : SpellsNumber text) (ends : EndsNumber rest) :
    number? (text ++ rest) = some (text, rest) := by
  obtain ⟨rfl | rfl, isWhole, isFraction, isPower⟩ := spells
  · have magnitude := magnitude?_append isWhole isFraction isPower ends
    obtain ⟨c, cs, rfl, digit⟩ := isWhole.exists_cons
    simp only [List.nil_append, List.append_assoc]
    unfold number?
    split
    · next same => rw [(List.cons.inj same).1] at digit; cases digit
    · simpa using magnitude
  · simp [number?, magnitude?_append isWhole isFraction isPower ends]

/-! ## Strings -/

theorem escaped?_of_mem_escapes {c d : Char} (known : (c, d) ∈ escapes) :
    escaped? c = some d ∧ c ≠ 'u' := by
  simp only [escapes, List.mem_cons, Prod.mk.injEq, List.not_mem_nil, or_false] at known
  rcases known with ⟨rfl, rfl⟩ | ⟨rfl, rfl⟩ | ⟨rfl, rfl⟩ | ⟨rfl, rfl⟩ | ⟨rfl, rfl⟩ | ⟨rfl, rfl⟩ |
    ⟨rfl, rfl⟩ | ⟨rfl, rfl⟩ <;> exact ⟨rfl, by decide⟩

theorem codePoint?_of_bare {c : Char} (bare : c ≠ '"' ∧ c ≠ '\\') (visible : 0x20 ≤ c.toNat) :
    codePoint? (c :: text) = some (.char c, text) := by
  unfold codePoint?
  split
  · next same => exact absurd (List.cons.inj same).1 bare.2
  · next same => exact absurd (List.cons.inj same).1 bare.2
  · next same =>
    obtain ⟨rfl, rfl⟩ := List.cons.inj same
    exact if_neg (not_or.2 ⟨bare.2, Nat.not_lt.2 visible⟩)
  · next same => cases same

theorem codePoint?_of_escape {c d : Char} (known : (c, d) ∈ escapes) :
    codePoint? ('\\' :: c :: text) = some (.char d, text) := by
  obtain ⟨stands, notUnit⟩ := escaped?_of_mem_escapes known
  unfold codePoint?
  split
  · next same => exact absurd (List.cons.inj (List.cons.inj same).2).1 notUnit
  · next same =>
    obtain ⟨rfl, rfl⟩ := List.cons.inj (List.cons.inj same).2
    rw [stands]
    rfl
  · next other same =>
    obtain ⟨rfl, rfl⟩ := List.cons.inj same
    exact absurd rfl (other c text rfl)
  · next same => cases same

theorem codePoint?_of_hex {a b c d : Char} {unit : Nat} {point : CodePoint}
    (hex : hexUnit? a b c d = some unit) (joined : joinUnit unit text = (point, rest)) :
    codePoint? ('\\' :: 'u' :: a :: b :: c :: d :: text) = some (point, rest) := by
  rw [codePoint?, hex, Option.map_some, joined]

theorem hexUnit?_eq_none_of_quote_mem {a b c d : Char} (quote : '"' ∈ [a, b, c, d]) :
    hexUnit? a b c d = none := by
  have notHex : hexDigit? '"' = none := rfl
  simp only [List.mem_cons, List.not_mem_nil, or_false] at quote
  rcases quote with rfl | rfl | rfl | rfl <;> simp [hexUnit?, notHex]

/-- The closing quote is no hexadecimal digit, so a body that lacks the second unit of a pair does
    not get it from what stands behind. -/
theorem lowSurrogate?_append_quote {body : List Char} (alone : lowSurrogate? body = none) :
    lowSurrogate? (body ++ '"' :: rest) = none := by
  generalize whole : body ++ '"' :: rest = text
  unfold lowSurrogate?
  split
  · next a b c d cs =>
    -- Either the quote stands at one of the first six places, or all of them lie in the body.
    match body with
    | [] | [_] => simp at whole
    | [_, _] | [_, _, _] | [_, _, _, _] | [_, _, _, _, _] =>
      simp only [List.cons_append, List.nil_append, List.cons.injEq] at whole
      rw [hexUnit?_eq_none_of_quote_mem (by simp [← whole.2.2])]
      rfl
    | _ :: _ :: a' :: b' :: c' :: d' :: body =>
      simp only [List.cons_append, List.cons.injEq] at whole
      obtain ⟨rfl, rfl, rfl, rfl, rfl, rfl, -⟩ := whole
      simp only [lowSurrogate?, Option.bind_eq_bind, Option.bind_eq_none_iff] at alone ⊢
      intro unit hex
      have unread := alone unit hex
      split at unread
      · cases unread
      · next notLow => exact if_neg notLow
  · rfl

theorem joinUnit_of_whole {unit : Nat}
    (whole : isHighSurrogate unit = false ∧ isLowSurrogate unit = false) :
    joinUnit unit text = (.char (Char.ofNat unit), text) := by
  simp [joinUnit, whole]

theorem joinUnit_of_pair {a b c d : Char} {high low : Nat} (first : isHighSurrogate high = true)
    (hex : hexUnit? a b c d = some low) (second : isLowSurrogate low = true) :
    joinUnit high ('\\' :: 'u' :: a :: b :: c :: d :: text) =
      (.char (ofSurrogates high low), text) := by
  simp [joinUnit, first, lowSurrogate?, hex, second]

theorem joinUnit_of_half {unit : Nat} {body : List Char}
    (alone : isLowSurrogate unit = true ∨
      isHighSurrogate unit = true ∧ lowSurrogate? body = none) :
    joinUnit unit (body ++ '"' :: rest) = (.surrogate unit, body ++ '"' :: rest) := by
  rcases alone with low | ⟨high, alone⟩
  · have notHigh : isHighSurrogate unit = false := by
      simp only [isLowSurrogate, isHighSurrogate, Bool.and_eq_true, Bool.and_eq_false_iff,
        decide_eq_true_eq, decide_eq_false_iff_not] at low ⊢
      omega
    simp [joinUnit, notHigh, low]
  · simp [joinUnit, high, lowSurrogate?_append_quote alone]

theorem codePoints?_cons {c : Char} {behind : List Char} {point : CodePoint} (inside : c ≠ '"')
    (first : codePoint? (c :: text) = some (point, behind)) :
    codePoints? (c :: text) =
      (codePoints? behind).map fun (points, rest) => (point :: points, rest) := by
  rw [codePoints?]
  · split
    · next none => rw [first] at none; cases none
    · next found => rw [first] at found; cases found; rfl
  · rintro rest same
    exact inside (List.cons.inj same).1

theorem codePoints?_append {body : List Char} {points : List CodePoint}
    (spells : SpellsPoints body points) :
    codePoints? (body ++ '"' :: rest) = some (points, rest) := by
  have notQuote : '\\' ≠ '"' := by decide
  induction spells with
  | nil => rw [List.nil_append, codePoints?]
  | plain bare visible _ ih =>
    rw [List.cons_append, codePoints?_cons bare.1 (codePoint?_of_bare bare visible), ih]
    rfl
  | escape known _ ih =>
    simp only [List.cons_append]
    rw [codePoints?_cons notQuote (codePoint?_of_escape known), ih]
    rfl
  | unit hex whole _ ih =>
    simp only [List.cons_append]
    rw [codePoints?_cons notQuote (codePoint?_of_hex hex (joinUnit_of_whole whole)), ih]
    rfl
  | pair hex first hex' second _ ih =>
    simp only [List.cons_append]
    rw [codePoints?_cons notQuote (codePoint?_of_hex hex (joinUnit_of_pair first hex' second)), ih]
    rfl
  | half hex alone _ ih =>
    simp only [List.cons_append]
    rw [codePoints?_cons notQuote (codePoint?_of_hex hex (joinUnit_of_half alone)), ih]
    rfl

/-- Visible characters other than quotes and backslashes stand for themselves. -/
theorem spellsPoints_map_char {cs : List Char}
    (plain : ∀ c ∈ cs, (c ≠ '"' ∧ c ≠ '\\') ∧ 0x20 ≤ c.toNat) :
    SpellsPoints cs (cs.map .char) := by
  induction cs with
  | nil => exact .nil
  | cons c cs ih =>
    obtain ⟨⟨bare, visible⟩, rest⟩ := List.forall_mem_cons.1 plain
    exact .plain bare visible (ih rest)

/-! ## Tokens -/

/-- A literal starts with a character that is no white space. -/
theorem SpellsToken.exists_cons (spells : SpellsToken word token) :
    ∃ c cs, word = c :: cs ∧ isSpace c = false := by
  cases spells with
  | number spells =>
    obtain ⟨c, cs, rfl, start⟩ := spells.exists_cons
    refine ⟨c, cs, rfl, ?_⟩
    rcases start with rfl | digit
    · rfl
    · rw [Bool.eq_false_iff]
      intro space
      simp only [isSpace, Bool.or_eq_true, beq_iff_eq] at space
      rcases space with ((rfl | rfl) | rfl) | rfl <;> cases digit
  | _ => exact ⟨_, _, rfl, rfl⟩

theorem token?_append (spells : SpellsToken word token)
    (ends : ∀ number, token = .number number → EndsNumber rest) :
    token? (word ++ rest) = some (token, rest) := by
  cases spells with
  | number spells =>
    have found := number?_append spells (ends _ rfl)
    obtain ⟨c, cs, rfl, start⟩ := spells.exists_cons
    -- No other token starts as a number does, so the last branch of the reader is taken.
    have other : ∀ (d : Char) (ds : List Char), ¬(d = '-' ∨ d.isDigit = true) →
        c :: cs ++ rest ≠ d :: ds := by
      intro d ds odd same
      exact odd ((List.cons.inj same).1 ▸ start)
    unfold token?
    split
    case h_11 => rw [found]; rfl
    all_goals next same => exact absurd same (other _ _ (by decide))
  | string spells => simp [token?, codePoints?_append spells]
  | _ => rfl

theorem tokens?_space {c : Char} (space : isSpace c = true) :
    tokens? (c :: text) = tokens? text := by
  rw [tokens?, if_pos space]

theorem tokens?_of_token? {c : Char} (visible : isSpace c = false)
    (first : token? (c :: text) = some (token, rest)) :
    tokens? (c :: text) = (tokens? rest).map (token :: ·) := by
  rw [tokens?, if_neg (by simp [visible])]
  split
  · next none => rw [first] at none; cases none
  · next found => rw [first] at found; cases found; rfl

theorem Lexes.eq_nil (lexes : Lexes [] tokens) : tokens = [] := by
  generalize none : [] = text at lexes
  cases lexes with
  | nil => rfl
  | space => cases none
  | token spells =>
    obtain ⟨c, cs, rfl, -⟩ := spells.exists_cons
    cases none

/-- A text that spells tokens is cut into them, whatever stands behind it, unless that goes on with
    a number at its end. -/
theorem Lexes.tokens?_append (lexes : Lexes text tokens)
    (ends : ∀ number, tokens.getLast? = some (.number number) → EndsNumber rest) :
    tokens? (text ++ rest) = (tokens? rest).map (tokens ++ ·) := by
  induction lexes with
  | nil => simp
  | space isSpace _ ih => rw [List.cons_append, tokens?_space isSpace, ih ends]
  | @token word text token tokens spells endsHere more ih =>
    -- The first token ends within the text, unless it is the last one and ends with it.
    have endsBehind : ∀ number, token = .number number → EndsNumber (text ++ rest) := by
      rintro number rfl
      by_cases last : text = []
      · subst last
        cases more.eq_nil
        exact ends number rfl
      · exact (endsHere number rfl).append last rest
    have endsLater : ∀ number, tokens.getLast? = some (.number number) → EndsNumber rest := by
      intro number last
      cases tokens with
      | nil => cases last
      | cons second tokens => exact ends number (by rwa [List.getLast?_cons_cons])
    obtain ⟨c, cs, rfl, visible⟩ := spells.exists_cons
    have first : token? (c :: (cs ++ (text ++ rest))) = some (token, text ++ rest) :=
      token?_append spells endsBehind
    rw [List.append_assoc, List.cons_append, tokens?_of_token? visible first, ih endsLater,
      Option.map_map]
    rfl

end BranchSieve.Json
