import BranchSieve.Text.Blank
import Mathlib.Data.List.Infix
import Mathlib.Data.List.TakeWhile

/-!
# Words between blanks

What a line that is put together from words gives back: blanks in front are trimmed, and the first
word and the list of words are found again.
-/

namespace BranchSieve.Text

/-- A text that a line is cut into. -/
def IsWord (w : List Char) : Prop := w ≠ [] ∧ ∀ c ∈ w, isBlank c = false

/-- A text without blanks at either end. -/
def IsTrimmed (cs : List Char) : Prop :=
  (∀ c ∈ cs.head?, isBlank c = false) ∧ ∀ c ∈ cs.getLast?, isBlank c = false

/-- A text that can be the rest of a line. -/
def IsLineRest (cs : List Char) : Prop := IsTrimmed cs ∧ '\n' ∉ cs

variable {w cs rest : List Char} {b : Char}

/-- The visible characters of ASCII are no blanks. -/
theorem isBlank_of_visible {c : Char} (above : 0x20 < c.toNat) (below : c.toNat < 0x7F) :
    isBlank c = false := by
  simp [isBlank, blankRanges]
  omega

theorem isBlank_of_isDigit {c : Char} (h : c.isDigit = true) : isBlank c = false := by
  rw [Char.isDigit, Bool.and_eq_true, decide_eq_true_eq, decide_eq_true_eq] at h
  have least : 48 ≤ c.toNat := UInt32.le_iff_toNat_le.1 h.1
  have greatest : c.toNat ≤ 57 := UInt32.le_iff_toNat_le.1 h.2
  apply isBlank_of_visible <;> omega

theorem isBlank_of_isUpper {c : Char} (h : c.isUpper = true) : isBlank c = false := by
  have range : 'A'.val ≤ c.val ∧ c.val ≤ 'Z'.val := of_decide_eq_true h
  have least : 65 ≤ c.toNat := UInt32.le_iff_toNat_le.1 range.1
  have greatest : c.toNat ≤ 90 := UInt32.le_iff_toNat_le.1 range.2
  apply isBlank_of_visible <;> omega

theorem isTrimmed_nil : IsTrimmed [] := by simp [IsTrimmed]

theorem isWord_iff_all : IsWord w ↔ (!w.isEmpty && w.all (!isBlank ·)) = true := by
  simp [IsWord]

theorem isTrimmed_iff_all :
    IsTrimmed cs ↔ (cs.head?.all (!isBlank ·) && cs.getLast?.all (!isBlank ·)) = true := by
  simp [IsTrimmed, Option.all_eq_true]

instance : DecidablePred IsWord := fun _ => decidable_of_iff' _ isWord_iff_all

instance : DecidablePred IsTrimmed := fun _ => decidable_of_iff' _ isTrimmed_iff_all

instance (cs : List Char) : Decidable (IsLineRest cs) :=
  inferInstanceAs (Decidable (IsTrimmed cs ∧ '\n' ∉ cs))

theorem IsWord.isTrimmed (h : IsWord w) : IsTrimmed w :=
  ⟨fun c mem => h.2 c (List.mem_of_mem_head? mem),
    fun c mem => h.2 c (List.mem_of_mem_getLast? mem)⟩

/-- A text between two trimmed texts does not matter. -/
theorem IsTrimmed.append (h : IsTrimmed w) (nonempty : w ≠ []) (h' : IsTrimmed rest)
    (nonempty' : rest ≠ []) (between : List Char) : IsTrimmed (w ++ between ++ rest) := by
  obtain ⟨first, w, rfl⟩ := List.exists_cons_of_ne_nil nonempty
  obtain ⟨rest, last, rfl⟩ := List.eq_nil_or_concat rest |>.resolve_left nonempty'
  refine ⟨by simpa using h.1, ?_⟩
  rw [List.concat_eq_append, ← List.append_assoc, List.getLast?_concat]
  simpa using h'.2

theorem IsWord.isLineRest (h : IsWord w) : IsLineRest w := by
  refine ⟨h.isTrimmed, fun mem => ?_⟩
  have noBlank := h.2 '\n' mem
  exact absurd noBlank (by decide)

/-- Two parts of a line with a blank between them. -/
theorem IsLineRest.append (h : IsLineRest w) (nonempty : w ≠ []) (h' : IsLineRest rest)
    (nonempty' : rest ≠ []) : IsLineRest (w ++ ' ' :: rest) := by
  constructor
  · simpa using h.1.append nonempty h'.1 nonempty' [' ']
  · simp only [List.mem_append, List.mem_cons, not_or]
    exact ⟨h.2, by decide, h'.2⟩

theorem IsWord.isLineRest_append (h : IsWord w) (h' : IsWord rest) :
    IsLineRest (w ++ ' ' :: rest) :=
  h.isLineRest.append h.1 h'.isLineRest h'.1

theorem trimLeft_of_head? (h : ∀ c ∈ cs.head?, isBlank c = false) : trimLeft cs = cs := by
  cases cs with
  | nil => rfl
  | cons c cs => simp [trimLeft, h c (by simp)]

theorem trimLeft_of_isTrimmed (h : IsTrimmed cs) : trimLeft cs = cs := trimLeft_of_head? h.1

/-- What stands behind a visible character is trimmed at the end for itself. -/
theorem trimRight_append_cons {c : Char} (visible : isBlank c = false) (front back : List Char) :
    trimRight (front ++ c :: back) = front ++ c :: trimRight back := by
  have reversed : (front ++ c :: back).reverse = back.reverse ++ c :: front.reverse := by simp
  rw [trimRight, trimRight, reversed, List.dropWhile_append]
  split
  · next blanks =>
    rw [List.isEmpty_iff.1 blanks, List.dropWhile_cons_of_neg (by simp [visible])]
    simp
  · simp

theorem trim_of_isTrimmed (h : IsTrimmed cs) : trim cs = cs := by
  rw [trim, trimLeft_of_isTrimmed h, trimRight]
  cases reversed : cs.reverse with
  | nil => simpa using reversed.symm
  | cons c rest =>
    have last : isBlank c = false := h.2 c (by simp [← List.head?_reverse, reversed])
    rw [List.dropWhile_cons_of_neg (by simp [last]), ← reversed, List.reverse_reverse]

/-- Blanks in front of a text are trimmed. -/
theorem trim_append_of_blank {blanks : List Char} (h : ∀ c ∈ blanks, isBlank c = true)
    (cs : List Char) : trim (blanks ++ cs) = trim cs := by
  rw [trim, trimLeft, List.dropWhile_append_of_pos h, ← trimLeft, ← trim]

theorem trim_nil : trim [] = [] := rfl

theorem splitFirst_append (h : ∀ c ∈ w, isBlank c = false) (blank : isBlank b = true)
    (rest : List Char) : splitFirst (w ++ b :: rest) = (w, trim rest) := by
  have word : ∀ c ∈ w, (!isBlank c) = true := fun c mem => by simp [h c mem]
  have one : ∀ c ∈ [b], isBlank c = true := by simpa using blank
  have behind : trim (b :: rest) = trim rest := trim_append_of_blank one rest
  rw [splitFirst, List.takeWhile_append_of_pos word, List.dropWhile_append_of_pos word]
  simp [blank, behind]

theorem splitFirst_of_word (h : ∀ c ∈ w, isBlank c = false) : splitFirst w = (w, []) := by
  have word : ∀ c ∈ w, (!isBlank c) = true := fun c mem => by simp [h c mem]
  rw [splitFirst, List.takeWhile_eq_self_iff.2 word, List.dropWhile_eq_nil_iff.2 word, trim_nil]

@[simp]
theorem words_nil : words [] = [] := by rw [words]

theorem words_append (h : IsWord w) (blank : isBlank b = true) (rest : List Char) :
    words (w ++ b :: rest) = w :: words rest := by
  obtain ⟨nonempty, solid⟩ := h
  cases w with
  | nil => exact absurd rfl nonempty
  | cons c w =>
    have word : ∀ c ∈ w, (!isBlank c) = true := fun c mem => by
      simp [solid c (List.mem_cons_of_mem _ mem)]
    have behind : words (b :: rest) = words rest := by rw [words, if_pos blank]
    rw [List.cons_append, words, if_neg (by simp [solid c List.mem_cons_self]),
      List.takeWhile_append_of_pos word, List.dropWhile_append_of_pos word]
    simp [blank, behind]

theorem words_of_isWord (h : IsWord w) : words w = [w] := by
  obtain ⟨nonempty, solid⟩ := h
  cases w with
  | nil => exact absurd rfl nonempty
  | cons c w =>
    have word : ∀ c ∈ w, (!isBlank c) = true := fun c mem => by
      simp [solid c (List.mem_cons_of_mem _ mem)]
    rw [words, if_neg (by simp [solid c List.mem_cons_self]), List.takeWhile_eq_self_iff.2 word,
      List.dropWhile_eq_nil_iff.2 word, words_nil]

/-! ## What a text is cut into -/

theorem isWord_of_mem_words (h : w ∈ words cs) : IsWord w :=
  ⟨ne_nil_of_mem_words h, fun _ mem => not_isBlank_of_mem_words h mem⟩

theorem isPrefix_trimRight (cs : List Char) : trimRight cs <+: cs := by
  rw [trimRight, ← List.reverse_suffix, List.reverse_reverse]
  exact List.dropWhile_suffix _

theorem isInfix_trim (cs : List Char) : trim cs <:+: cs :=
  (isPrefix_trimRight _).isInfix.trans (List.dropWhile_suffix _).isInfix

theorem isTrimmed_trim (cs : List Char) : IsTrimmed (trim cs) := by
  have first : ∀ text : List Char, ∀ c ∈ (text.dropWhile isBlank).head?, isBlank c = false := by
    intro text c mem
    have solid := List.head?_dropWhile_not isBlank text
    rw [Option.mem_def.1 mem] at solid
    exact solid
  constructor
  · intro c mem
    obtain ⟨rest, whole⟩ := isPrefix_trimRight (trimLeft cs)
    refine first cs c ?_
    rw [← trimLeft, ← whole, List.head?_append,
      show (trimRight (trimLeft cs)).head? = some c from mem]
    rfl
  · intro c mem
    rw [trim, trimRight, List.getLast?_reverse] at mem
    exact first _ c mem

/-- Only blanks are trimmed to nothing. -/
theorem isBlank_of_trim_eq_nil (h : trim cs = []) : ∀ c ∈ cs, isBlank c = true := by
  rw [trim, trimRight, List.reverse_eq_nil_iff, List.dropWhile_eq_nil_iff] at h
  have blanks : ∀ c ∈ trimLeft cs, isBlank c = true := fun c mem => h c (List.mem_reverse.2 mem)
  intro c mem
  rw [← List.takeWhile_append_dropWhile (p := isBlank) (l := cs), List.mem_append] at mem
  rcases mem with front | back
  · exact List.all_eq_true.1 List.all_takeWhile c front
  · exact blanks c back

theorem words_trimLeft (cs : List Char) : words (trimLeft cs) = words cs := by
  induction cs with
  | nil => rfl
  | cons c cs ih =>
    by_cases blank : isBlank c = true
    · rw [trimLeft, List.dropWhile_cons_of_pos blank, ← trimLeft, ih, words, if_pos blank]
    · rw [trimLeft, List.dropWhile_cons_of_neg blank]

/-- Blanks at the end belong to no word. -/
theorem takeWhile_trimRight (cs : List Char) :
    (trimRight cs).takeWhile (!isBlank ·) = cs.takeWhile (!isBlank ·) := by
  have split : trimRight cs ++ (cs.reverse.takeWhile isBlank).reverse = cs := by
    rw [trimRight, ← List.reverse_append, List.takeWhile_append_dropWhile, List.reverse_reverse]
  have blanks : (cs.reverse.takeWhile isBlank).reverse.takeWhile (!isBlank ·) = [] := by
    rw [List.takeWhile_eq_nil_iff]
    intro inside
    have mem := List.mem_reverse.1 (List.getElem_mem inside)
    simpa using List.all_eq_true.1 List.all_takeWhile _ mem
  conv_rhs => rw [← split, List.takeWhile_append, blanks, List.append_nil]
  split
  · next whole => rw [(List.takeWhile_prefix _).eq_of_length whole]
  · rfl

/-- The first word of a line stands where its trimmed text is cut. -/
theorem head?_words (nonempty : trim cs ≠ []) :
    (words cs).head? = some (splitFirst (trim cs)).1 := by
  have first : (splitFirst (trim cs)).1 = (trimLeft cs).takeWhile (!isBlank ·) :=
    takeWhile_trimRight (trimLeft cs)
  rw [first, ← words_trimLeft]
  cases start : trimLeft cs with
  | nil =>
    rw [trim, start] at nonempty
    exact absurd rfl nonempty
  | cons c rest =>
    have solid : isBlank c = false := by
      have head := List.head?_dropWhile_not isBlank cs
      rw [← trimLeft, start] at head
      exact head
    rw [words, if_neg (by simp [solid]), List.takeWhile_cons_of_pos (by simp [solid])]
    rfl

/-- The first word of a text without blanks in front, and the rest, which is trimmed. -/
theorem splitFirst_spec {keyword operands : List Char}
    (split : splitFirst cs = (keyword, operands)) :
    (∀ c ∈ keyword, isBlank c = false) ∧ IsTrimmed operands ∧ keyword ⊆ cs ∧ operands ⊆ cs := by
  obtain ⟨rfl, rfl⟩ := Prod.mk.inj split
  refine ⟨fun c mem => ?_, isTrimmed_trim _, (List.takeWhile_sublist _).subset, ?_⟩
  · simpa using List.all_eq_true.1 List.all_takeWhile c mem
  · exact fun c mem => (List.dropWhile_suffix _).subset ((isInfix_trim _).subset mem)

end BranchSieve.Text
