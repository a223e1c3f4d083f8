/-!
# String literals

A string literal stands between double quotes. Its body escapes the double quote, the backslash,
the line feed and the tab with a backslash; every other character stands for itself, a bare double
quote too. The last double quote closes the literal, whatever stands before it. The lemma says
that reading undoes writing.
-/

namespace BranchSieve.Text.Quoted

/-- Why a text is no string literal. -/
inductive Fault where
  /-- There is no closing quote. -/
  | unterminated
  /-- The body ends with the backslash of an escape. -/
  | danglingEscape
  /-- A backslash stands in front of a character that has no escape. -/
  | unknownEscape (c : Char)
  deriving DecidableEq, Repr

/-- The written form of a character of the body. -/
def encodeChar (c : Char) : List Char :=
  if c = '"' then ['\\', '"']
  else if c = '\\' then ['\\', '\\']
  else if c = '\n' then ['\\', 'n']
  else if c = '\t' then ['\\', 't']
  else [c]

/-- The character that a backslash and `c` stand for. -/
def escaped? (c : Char) : Option Char :=
  if c = '"' then some '"'
  else if c = '\\' then some '\\'
  else if c = 'n' then some '\n'
  else if c = 't' then some '\t'
  else none

/-- The text that a body stands for. -/
def decode : List Char → Except Fault (List Char)
  | [] => .ok []
  | ['\\'] => .error .danglingEscape
  | '\\' :: c :: cs =>
    match escaped? c with
    | none => .error (.unknownEscape c)
    | some d => (decode cs).map (d :: ·)
  | c :: cs => (decode cs).map (c :: ·)

/-- The literal of a text. -/
def write (text : List Char) : List Char :=
  '"' :: text.flatMap encodeChar ++ ['"']

/-- The text of the literal that has `afterQuote` behind its opening quote. -/
def readAfterQuote (afterQuote : List Char) : Except Fault (List Char) :=
  if afterQuote.getLast? = some '"' then decode afterQuote.dropLast else .error .unterminated

theorem decode_flatMap_encodeChar (text : List Char) :
    decode (text.flatMap encodeChar) = .ok text := by
  induction text with
  | nil => simp [decode]
  | cons c cs ih =>
    by_cases quote : c = '"'
    · simp [encodeChar, decode, escaped?, ih, quote, Except.map]
    · by_cases slash : c = '\\'
      · simp [encodeChar, decode, escaped?, ih, slash, Except.map]
      · by_cases feed : c = '\n'
        · simp [encodeChar, decode, escaped?, ih, feed, Except.map]
        · by_cases tab : c = '\t'
          · simp [encodeChar, decode, escaped?, ih, tab, Except.map]
          · simp [encodeChar, decode, ih, quote, slash, feed, tab, Except.map]

end BranchSieve.Text.Quoted
