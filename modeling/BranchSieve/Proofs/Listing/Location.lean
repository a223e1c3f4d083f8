import BranchSieve.Proofs.Listing.Refusal
import BranchSieve.Proofs.Text.Lines

/-!
# Where a listing is refused

An error that names a line names the first one at which the reader can know that the text is
refused, or, for a fault of a whole switch, the line that opens the switch. The lines before it are
without fault: taken for themselves they are a listing, or one that is cut short. With the named
line they are refused there.
-/

namespace BranchSieve.Listing

open Text (splitFirst trim words)

/-- The first lines of a text, with their line ends. -/
def firstLines (count : Nat) (text : String) : String :=
  String.ofList (Text.takeLines count text.toList)

/-- A line opens a switch. -/
def OpensSwitch (line : List Char) (kind : SwitchKind) : Prop :=
  ∃ operands, splitFirst (trim line) = (kind.keyword, operands) ∧ words operands = []

/-- A text is a listing up to its end, which may come too early. -/
inductive IsCutShort [Overflow] (text : String) : Prop where
  | accepted {listing : ClassListing} (read : parse text = .ok listing)
  | noClass (refused : parse text = .error .missingClass)
  | openMethod {method : String} (refused : parse text = .error (.unterminatedMethod method))
  /-- The last lines are the start of a switch with cases and without the default. -/
  | openSwitch {header : Line} {kind : SwitchKind} {before cases : List Line}
      (refused : parse text = .error (.atLine header .switchWithoutDefault))
      (split : numberedLines text = before ++ header :: cases)
      (opens : OpensSwitch header.text.toList kind)
      (spelled : ∀ line ∈ cases, ∃ key label, SpellsCase line.text.toList key label)

variable {text : String} {line : Line} {lines before after : List Line} {scope : Scope}
  {state : State} {listing : ClassListing} {draft : Draft} {switch : OpenSwitch} {fault : Fault}

/-! ## Lines and their numbers -/

theorem getElem?_numberedLines (text : String) (index : Nat) :
    (numberedLines text)[index]? =
      (Text.lines text.toList)[index]?.map fun line => ⟨index + 1, String.ofList line⟩ := by
  rw [numberedLines, List.getElem?_map, List.getElem?_zipIdx, Option.map_map]
  simp only [Function.comp_def, Nat.add_comm 1 index]

theorem numberedLines_firstLines (count : Nat) (text : String) :
    numberedLines (firstLines count text) = (numberedLines text).take count := by
  refine List.ext_getElem? fun index => ?_
  rw [List.getElem?_take, getElem?_numberedLines, firstLines, String.toList_ofList,
    Text.lines_takeLines, List.getElem?_take]
  split
  · rw [getElem?_numberedLines]
  · rfl

/-- A line is numbered by the lines before it. -/
theorem line_of_split (split : numberedLines text = before ++ line :: after) :
    line.number = before.length + 1 ∧
      (Text.lines text.toList)[before.length]? = some line.text.toList := by
  have here : (numberedLines text)[before.length]? = some line := by simp [split]
  rw [getElem?_numberedLines, Option.map_eq_some_iff] at here
  obtain ⟨shown, found, rfl⟩ := here
  exact ⟨rfl, by rw [found, String.toList_ofList]⟩

theorem numberedLines_before (split : numberedLines text = before ++ line :: after) :
    numberedLines (firstLines (line.number - 1) text) = before := by
  rw [numberedLines_firstLines, (line_of_split split).1, split, Nat.add_sub_cancel,
    List.take_left]

theorem numberedLines_upTo (split : numberedLines text = before ++ line :: after) :
    numberedLines (firstLines line.number text) = before ++ [line] := by
  rw [numberedLines_firstLines, (line_of_split split).1, split, ← List.singleton_append,
    ← List.append_assoc, List.take_left' (by simp)]

/-! ## Open switches -/

/-- Only the first line of a switch opens one. -/
theorem opensSwitch_of_step (h : scope.step line = .ok (.inSwitch listing draft switch)) :
    ∃ kind, scope = .inMethod listing draft ∧ switch = ⟨line, kind, []⟩ ∧
      OpensSwitch line.text.toList kind := by
  by_cases skipped : isSkipped line.text.toList = true
  · rw [Scope.step, read_of_isSkipped skipped] at h
    cases h
  · have shown : isSkipped line.text.toList = false := Bool.eq_false_iff.2 skipped
    rcases split : splitFirst (trim line.text.toList) with ⟨keyword, operands⟩
    by_cases single : ∀ kind : SwitchKind, keyword ≠ kind.keyword
    · obtain ⟨next, -, same⟩ := (step_line_iff shown split single).1 h
      cases same
    · obtain ⟨kind, same⟩ := not_forall_not.1 single
      subst same
      obtain ⟨_, _, rfl, bare, same⟩ := (step_switch_iff shown split).1 h
      cases same
      exact ⟨kind, rfl, rfl, operands, split, bare⟩

/-- A switch stays open behind a case of it. -/
theorem spellsCase_of_step [Overflow] {switch' : OpenSwitch} {listing' : ClassListing}
    {draft' : Draft}
    (h : (State.inSwitch listing draft switch).step line =
      .ok (.inSwitch listing' draft' switch')) :
    listing' = listing ∧ draft' = draft ∧ switch'.header = switch.header ∧
      ∃ key label, SpellsCase line.text.toList key label := by
  obtain ⟨case, read, h⟩ := bind_eq_ok_iff.1 h
  rcases readCase_eq_ok_iff.1 (check_eq_ok_iff.1 read) with
    ⟨key, label, spells, rfl⟩ | ⟨label, -, rfl⟩
  · cases pure_eq_ok_iff.1 h
    exact ⟨rfl, rfl, rfl, key, label, spells⟩
  · obtain ⟨node, -, h⟩ := bind_eq_ok_iff.1 h
    cases pure_eq_ok_iff.1 h

/-- Where a switch is open, its first line stands in a method, and behind it there are cases
    only. -/
theorem exists_header_of_foldlM [Overflow]
    (h : lines.foldlM State.step State.initial = .ok (.inSwitch listing draft switch)) :
    ∃ before cases kind, lines = before ++ switch.header :: cases ∧
      before.foldlM State.step State.initial = .ok (.ready (.inMethod listing draft)) ∧
      (Scope.inMethod listing draft).step switch.header =
        .ok (.inSwitch listing draft ⟨switch.header, kind, []⟩) ∧
      OpensSwitch switch.header.text.toList kind ∧
      ∀ line ∈ cases, ∃ key label, SpellsCase line.text.toList key label := by
  -- The last line has opened the switch or is one more case of it.
  induction lines using List.reverseRecOn generalizing switch with
  | nil => cases h
  | append_singleton lines line ih =>
    rw [List.foldlM_append, bind_eq_ok_iff] at h
    obtain ⟨state, front, last⟩ := h
    rw [List.foldlM_cons, bind_eq_ok_iff] at last
    obtain ⟨_, last, same⟩ := last
    cases pure_eq_ok_iff.1 same
    cases state with
    | ready scope =>
      obtain ⟨kind, rfl, rfl, opens⟩ := opensSwitch_of_step last
      exact ⟨lines, [], kind, rfl, front, last, opens, by simp⟩
    | inSwitch listing' draft' switch' =>
      obtain ⟨rfl, rfl, header, spelled⟩ := spellsCase_of_step last
      obtain ⟨before, cases, kind, rfl, reached, opened, opens, others⟩ := ih front
      rw [header]
      refine ⟨before, cases ++ [line], kind, by simp, reached, opened, opens, ?_⟩
      intro other mem
      rcases List.mem_append.1 mem with mem | mem
      · exact others other mem
      · rwa [List.mem_singleton.1 mem]

/-- A text whose lines lead anywhere is a listing up to its end. -/
theorem isCutShort_of_foldlM [Overflow]
    (h : (numberedLines text).foldlM State.step State.initial = .ok state) : IsCutShort text := by
  have outcome : parse text = state.finish := by rw [parse, h, ok_bind]
  cases state with
  | ready scope =>
    cases scope with
    | outside => exact .noClass outcome
    | inClass listing => exact .accepted outcome
    | inMethod listing draft => exact .openMethod outcome
  | inSwitch listing draft switch =>
    obtain ⟨before, cases, kind, split, -, -, opens, spelled⟩ := exists_header_of_foldlM h
    exact .openSwitch outcome split opens spelled

/-! ## The line of an error -/

section Errors

variable [overflow : Overflow]

/-- A fault is told with the line that is read, or with the first line of the open switch. -/
theorem State.line_of_step {line' : Line} (h : state.step line = .error (.atLine line' fault)) :
    fault.Fits line' ∧
      (line' = line ∨ ∃ listing draft switch, state = .inSwitch listing draft switch ∧
        line' = switch.header) := by
  cases State.refuses_of_step h with
  | ready refuses =>
    cases refuses with
    | fault fits => exact ⟨fits, .inl rfl⟩
  | case fits => exact ⟨fits, .inl rfl⟩
  | switch fits => exact ⟨fits, .inr ⟨_, _, _, rfl, rfl⟩⟩

/-- The line that an error names is read in a state that the lines before it lead to, and there it
    is refused or opens a switch. -/
theorem exists_state_of_atLine (refused : parse text = .error (.atLine line fault)) :
    fault.Fits line ∧ ∃ before after state, numberedLines text = before ++ line :: after ∧
      before.foldlM State.step State.initial = .ok state ∧
      (state.step line = .error (.atLine line fault) ∨ ∃ listing draft kind,
        state.step line = .ok (.inSwitch listing draft ⟨line, kind, []⟩)) := by
  rcases bind_eq_error_iff.1 refused with failed | ⟨state, reached, unfinished⟩
  · obtain ⟨front, last, back, state, split, reached, failed⟩ := foldlM_eq_error_iff.1 failed
    obtain ⟨fits, rfl | ⟨listing, draft, switch, rfl, rfl⟩⟩ := State.line_of_step failed
    · exact ⟨fits, front, back, state, split, reached, .inl failed⟩
    · obtain ⟨before, cases, kind, rfl, ready, opened, -, -⟩ := exists_header_of_foldlM reached
      exact ⟨fits, before, cases ++ last :: back, _, by simp [split], ready,
        .inr ⟨listing, draft, kind, opened⟩⟩
  · cases state with
    | ready scope => cases scope <;> cases unfinished
    | inSwitch listing draft switch =>
      cases unfinished
      obtain ⟨before, cases, kind, split, ready, opened, -, -⟩ := exists_header_of_foldlM reached
      exact ⟨Fault.fits_of_isPlain rfl _, before, cases, _, split, ready,
        .inr ⟨listing, draft, kind, opened⟩⟩

/-- An error names a line of the text, whole and by its number, and an unknown opcode is the first
    word there. The lines before it are a listing or one that is cut short, and up to the line the
    text is refused there, if not for the same fault then because the switch that it opens has no
    default yet. -/
theorem line_of_parse (refused : parse text = .error (.atLine line fault)) :
    (1 ≤ line.number ∧ line.number ≤ (Text.lines text.toList).length) ∧
      (Text.lines text.toList)[line.number - 1]? = some line.text.toList ∧
      (∀ mnemonic, fault = .unknownOpcode mnemonic →
        (words line.text.toList).head? = some mnemonic.toList) ∧
      IsCutShort (firstLines (line.number - 1) text) ∧
      ∃ fault', parse (firstLines line.number text) = .error (.atLine line fault') ∧
        (fault' = fault ∨ fault' = .switchWithoutDefault) := by
  obtain ⟨fits, before, after, state, split, reached, here⟩ := exists_state_of_atLine refused
  obtain ⟨number, shown⟩ := line_of_split split
  have inside : before.length < (Text.lines text.toList).length := by
    rw [List.getElem?_eq_some_iff] at shown
    exact shown.1
  have front := numberedLines_before split
  have upTo := numberedLines_upTo split
  refine ⟨by omega, by rw [number, Nat.add_sub_cancel, shown], fits.opcode,
    isCutShort_of_foldlM (by rw [front, reached]), ?_⟩
  rcases here with failed | ⟨listing, draft, kind, opened⟩
  · refine ⟨fault, ?_, .inl rfl⟩
    rw [parse, upTo, List.foldlM_append, reached, ok_bind, List.foldlM_cons, failed]
    rfl
  · refine ⟨.switchWithoutDefault, ?_, .inr rfl⟩
    rw [parse, upTo, List.foldlM_append, reached, ok_bind, List.foldlM_cons, opened]
    rfl

/-- A counter stops the program at a text only if counters do so at all. -/
theorem stops_of_parse {error : ParseError} (refused : parse text = .error error)
    (stop : error.isStop = true) : overflow = .stops := by
  unfold ParseError.isStop at stop
  split at stop
  · exact (exists_state_of_atLine refused).1.stops rfl
  · cases stop

end Errors

/-- A table is known to be wrong at its default and is told by its first line; an unknown opcode
    behind a switch is told by its own line, without the blanks around it. -/
theorem line_of_parse_table :
    let front := "class C\r\n// keys\r\nmethod f ()V\nLOOKUPSWITCH\n1: L0\ndefault: L0\n"
    let text := front ++ "\tTABLESWITCH \n0: L0\n2: L0\ndefault: L0\nL0\nend\n"
    let line : Line := ⟨7, "\tTABLESWITCH "⟩
    let text' := front ++ "\u00a0 ASTOR 2\r\nL0\nend\n"
    let line' : Line := ⟨7, "\u00a0 ASTOR 2"⟩
    parse text = .error (.atLine line .tableNotConsecutive) ∧
      (Text.lines text.toList)[6]? = some line.text.toList ∧ IsCutShort (firstLines 6 text) ∧
      (∃ fault', parse (firstLines 7 text) = .error (.atLine line fault') ∧
        (fault' = .tableNotConsecutive ∨ fault' = .switchWithoutDefault)) ∧
      parse text' = .error (.atLine line' (.unknownOpcode "ASTOR")) ∧
      (words line'.text.toList).head? = some "ASTOR".toList ∧ IsCutShort (firstLines 6 text') := by
  intro front text line text' line'
  have refused : parse text = .error (.atLine line .tableNotConsecutive) := by decide +kernel
  have refused' : parse text' = .error (.atLine line' (.unknownOpcode "ASTOR")) := by
    decide +kernel
  obtain ⟨-, shown, -, short, upTo⟩ := line_of_parse refused
  obtain ⟨-, -, first, short', -⟩ := line_of_parse refused'
  exact ⟨refused, shown, short, upTo, refused', first "ASTOR" rfl, short'⟩

end BranchSieve.Listing
