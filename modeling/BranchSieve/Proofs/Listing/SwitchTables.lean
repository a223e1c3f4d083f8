import BranchSieve.Proofs.Listing.Layout
import BranchSieve.Proofs.Listing.Numbering

/-!
# Switches over several lines

The lines of a switch are its first line, one line for each case and the default. Whatever blanks
stand around the keys, the colons and the labels, the cases are read in their order, and behind the
default the reader goes on with one more node in the method. Cases in a table have to count up,
which is known at the default only, so a table that does not is told by its first line. The labels
of the node are names at first; the numbers that they get when the method ends are those that they
have already behind the switch, since what is mentioned later is numbered later.
-/

namespace BranchSieve.Listing

open Text (IsTrimmed IsWord isBlank trim)

/-- A line shows a key and a label, with a colon between them and any blanks around them. -/
def ShowsCase (line key label : List Char) : Prop :=
  ∃ indent before after rest, line = indent ++ key ++ before ++ ':' :: (after ++ label ++ rest) ∧
    ∀ c ∈ indent ++ before ++ after ++ rest, isBlank c = true

/-- A switch with the given cases and default is written over lines. -/
structure WritesSwitch (kind : SwitchKind) (cases : List (Int32 × String)) (otherwise : String)
    (header : Line) (caseLines : List Line) (last : Line) : Prop where
  opens : OpensSwitch header.text.toList kind
  shown : List.Forall₂ (fun line case => isLabelName case.2.toList = true ∧
    ∃ digits, Text.int32? digits = some case.1 ∧ ShowsCase line.text.toList digits case.2.toList)
    caseLines cases
  named : isLabelName otherwise.toList = true
  closes : ShowsCase last.text.toList "default".toList otherwise.toList

/-- There are keys, and each one is as far above the first as it stands behind it. -/
def CountUp (first : Int32) (keys : List Int32) : Prop :=
  keys.head? = some first ∧ ∀ (place : Nat) key, keys[place]? = some key →
    key.toInt = first.toInt + place

/-- The first lines of a text put a node into the open method, and the others are read on from
    there. If a class is read, the node stands in its place, by the numbers that its labels have so
    far. -/
structure ReadsNode (text : String) (listing : ClassListing) (draft : Draft)
    (lines back : List Line) (node : Insn String) : Prop where
  read : lines.foldlM State.step State.initial = .ok (.ready (.inMethod listing (draft.push node)))
  goesOn : parse text =
    back.foldlM State.step (.ready (.inMethod listing (draft.push node))) >>= State.finish
  stands : ∀ whole, parse text = .ok whole → ∃ method,
    whole.methods[listing.methods.length]? = some method ∧
      method.body.get? draft.nodes.size = some (node.mapLabels (draft.push node).number)

variable {text : String} {header last : Line} {caseLines front back : List Line}
  {listing : ClassListing} {draft : Draft} {switch : OpenSwitch} {kind : SwitchKind}
  {cases : List (Int32 × String)} {keys : List Int32} {otherwise : String} {first : Int32}
  {node : Insn String}

/-! ## A line of a switch -/

theorem isWord_of_isLabelName {name : List Char} (isName : isLabelName name = true) :
    IsWord name := by
  obtain ⟨nonempty, upper⟩ := all_isMnemonicChar_of_isLabelName isName
  exact ⟨nonempty, fun c mem => isBlank_of_isMnemonicChar (upper c mem)⟩

/-- What a line shows is what is left of it when the blanks are trimmed. -/
theorem ShowsCase.spellsTarget {line key label : List Char} (shows : ShowsCase line key label)
    (word : IsWord key) (noColon : ':' ∉ key) (isName : isLabelName label = true) :
    SpellsTarget line key (String.ofList label) := by
  obtain ⟨indent, before, after, rest, rfl, blank⟩ := shows
  simp only [List.forall_mem_append] at blank
  obtain ⟨⟨⟨blankIndent, blankBefore⟩, blankAfter⟩, blankRest⟩ := blank
  have nameWord : IsWord label := isWord_of_isLabelName isName
  have trimmed : IsTrimmed (key ++ (before ++ ':' :: after) ++ label) :=
    word.isTrimmed.append word.1 nameWord.isTrimmed nameWord.1 _
  have whole : trim (indent ++ key ++ before ++ ':' :: (after ++ label ++ rest)) =
      (key ++ before) ++ ':' :: (after ++ label) := by
    have regrouped : indent ++ key ++ before ++ ':' :: (after ++ label ++ rest) =
        indent ++ (key ++ (before ++ ':' :: after) ++ label) ++ rest := by simp
    rw [regrouped, trim_append_append blankIndent blankRest, Text.trim_of_isTrimmed trimmed]
    simp
  have front : trim (key ++ before) = key := by
    have none_before : ∀ c ∈ ([] : List Char), isBlank c = true := by simp
    have cut := trim_append_append none_before blankBefore key
    rwa [List.nil_append, Text.trim_of_isTrimmed word.isTrimmed] at cut
  have target : trim (after ++ label) = label := by
    rw [Text.trim_append_of_blank blankAfter, Text.trim_of_isTrimmed nameWord.isTrimmed]
  refine ⟨key ++ before, after ++ label, whole, ?_, front, by rwa [target], by rw [target]⟩
  intro mem
  rcases List.mem_append.1 mem with inKey | inBlanks
  · exact noColon inKey
  · exact absurd (blankBefore ':' inBlanks) (by decide)

theorem ShowsCase.spellsCase {line digits : List Char} {key : Int32} {label : String}
    (shows : ShowsCase line digits label.toList) (number : Text.int32? digits = some key)
    (isName : isLabelName label.toList = true) : SpellsCase line key label := by
  obtain ⟨nonempty, integer⟩ := Text.all_isIntegerChar_of_int32? number
  have word : IsWord digits :=
    ⟨nonempty, fun c mem => Text.isBlank_of_isIntegerChar (integer c mem)⟩
  have noColon : ':' ∉ digits := fun mem => absurd (integer ':' mem) (by decide)
  have spells := shows.spellsTarget word noColon isName
  rw [String.ofList_toList] at spells
  exact ⟨digits, spells, number⟩

theorem WritesSwitch.spellsCases
    (written : WritesSwitch kind cases otherwise header caseLines last) :
    List.Forall₂ (fun line case => SpellsCase line.text.toList case.1 case.2) caseLines cases := by
  apply written.shown.imp
  intro line case shown
  rcases shown with ⟨isName, digits, number, shows⟩
  exact shows.spellsCase number isName

theorem WritesSwitch.spellsDefault
    (written : WritesSwitch kind cases otherwise header caseLines last) :
    SpellsTarget last.text.toList "default".toList otherwise := by
  have spells := written.closes.spellsTarget (by decide) (by decide) written.named
  rwa [String.ofList_toList] at spells

/-! ## The reader in a switch -/

/-- Behind its first line a switch is open without cases. -/
theorem step_header (opens : OpensSwitch header.text.toList kind) :
    (State.ready (.inMethod listing draft)).step header =
      .ok (.inSwitch listing draft ⟨header, kind, []⟩) := by
  have shown := opens.isSkipped_eq
  rcases opens with ⟨operands, split, bare⟩
  exact (step_switch_iff shown split).2 ⟨listing, draft, rfl, bare, rfl⟩

/-- Cases are collected in their order. -/
theorem foldlM_cases (spelled : List.Forall₂
      (fun line case => SpellsCase line.text.toList case.1 case.2) caseLines cases) :
    caseLines.foldlM State.step (.inSwitch listing draft switch) =
      .ok (.inSwitch listing draft
        { switch with reversedCases := cases.reverse ++ switch.reversedCases }) := by
  induction spelled generalizing switch with
  | nil => rfl
  | cons spells _ ih =>
    rw [List.foldlM_cons, step_case spells, ok_bind, ih]
    simp [OpenSwitch.push]

/-- All lines of a switch together add the node that its cases and its default make. -/
theorem WritesSwitch.foldlM (written : WritesSwitch kind cases otherwise header caseLines last)
    (back : List Line) :
    (header :: (caseLines ++ last :: back)).foldlM State.step (.ready (.inMethod listing draft)) =
      header.check (OpenSwitch.close ⟨header, kind, cases.reverse⟩ otherwise) >>= fun node =>
        back.foldlM State.step (.ready (.inMethod listing (draft.push node))) := by
  rw [List.foldlM_cons, step_header written.opens, ok_bind, List.foldlM_append,
    foldlM_cases written.spellsCases, ok_bind, List.foldlM_cons, step_default written.spellsDefault,
    List.append_nil]
  cases header.check (OpenSwitch.close ⟨header, kind, cases.reverse⟩ otherwise) with
  | error fault => rfl
  | ok node => rfl

/-! ## The node of a switch -/

theorem close_lookup : OpenSwitch.close ⟨header, .lookup, cases.reverse⟩ otherwise =
    .ok (.lookupSwitch (cases.map Prod.fst) (cases.map Prod.snd) otherwise) := by
  rw [OpenSwitch.close, List.reverse_reverse]

/-- Keys each of which is greater by one than the one in front of it count up from the first. -/
theorem areConsecutive_iff_countUp :
    AreConsecutive (first :: keys) ↔ CountUp first (first :: keys) := by
  rw [areConsecutive_iff_isChain, List.isChain_iff_getElem]
  constructor
  · intro chain
    refine ⟨rfl, ?_⟩
    intro place
    induction place with
    | zero =>
      rintro key ⟨⟩
      simp
    | succ place ih =>
      intro key found
      obtain ⟨inside, rfl⟩ := List.getElem?_eq_some_iff.1 found
      have step := chain place inside
      have before := ih _ (List.getElem?_eq_getElem (by omega))
      rw [step, before]
      omega
  · rintro ⟨-, counted⟩ place inside
    have here := counted place _ (List.getElem?_eq_getElem (by omega))
    have behind := counted (place + 1) _ (List.getElem?_eq_getElem inside)
    rw [here, behind]
    omega

/-- A table is made of keys that count up, and it reaches from the first one to the last one. -/
theorem close_table_eq_ok_iff :
    OpenSwitch.close ⟨header, .table, cases.reverse⟩ otherwise = .ok node ↔
      ∃ first final, CountUp first (cases.map Prod.fst) ∧
        (cases.map Prod.fst).getLast? = some final ∧
        node = .tableSwitch first final (cases.map Prod.snd) otherwise := by
  rw [close_eq_ok_iff, List.reverse_reverse]
  constructor
  · intro spells
    cases spells with
    | table consecutive =>
      refine ⟨_, _, areConsecutive_iff_countUp.1 consecutive, ?_, rfl⟩
      rw [List.map_cons, List.getLast?_cons, List.getLastD_eq_getLast?]
  · rintro ⟨first, final, counted, isLast, rfl⟩
    cases cases with
    | nil => cases counted.1
    | cons case others =>
      cases counted.1
      rw [List.map_cons, List.getLast?_cons, ← List.getLastD_eq_getLast?] at isLast
      cases isLast
      exact .table (areConsecutive_iff_countUp.2 counted)

/-- A table whose keys do not count up is none. -/
theorem close_table_of_not_countUp (header : Line) (otherwise : String)
    (broken : ∀ first, ¬ CountUp first (cases.map Prod.fst)) :
    OpenSwitch.close ⟨header, .table, cases.reverse⟩ otherwise =
      .error (if cases = [] then .tableWithoutCases else .tableNotConsecutive) := by
  rw [OpenSwitch.close, List.reverse_reverse]
  cases cases with
  | nil => rfl
  | cons case others =>
    simp only [List.map_cons] at broken ⊢
    rw [if_neg (List.cons_ne_nil _ _), map_eq_error_iff]
    cases checked : OpenSwitch.checkKeys (some case.1) (case.1 :: others.map Prod.fst) with
    | ok given =>
      have consecutive := checkKeys_eq_ok_iff.1 checked
      exact absurd (areConsecutive_iff_countUp.1 consecutive) (broken case.1)
    | error fault =>
      rcases eq_of_checkKeys_eq_error checked with rfl | ⟨stops, -⟩
      · rfl
      · cases stops

/-! ## The node in the finished method -/

/-- The method in the given place has been read from a draft that starts with the nodes of another
    one. -/
def MethodStarts (draft : Draft) (count : Nat) (listing : ClassListing) : Prop :=
  ∃ method later, listing.methods[count]? = some method ∧ method.body = Draft.body later ∧
    draft.nodes.toList <+: later.nodes.toList

/-- The method in the given place starts with the nodes of a draft, be it open or not. -/
inductive Scope.Starts (draft : Draft) (count : Nat) : Scope → Prop where
  | isOpen {listing : ClassListing} {later : Draft} (place : listing.methods.length = count)
      (start : draft.nodes.toList <+: later.nodes.toList) :
      Starts draft count (.inMethod listing later)
  | ended {listing : ClassListing} (starts : MethodStarts draft count listing) :
      Starts draft count (.inClass listing)
  | behind {listing : ClassListing} {next : Draft} (starts : MethodStarts draft count listing) :
      Starts draft count (.inMethod listing next)

theorem Scope.Starts.takes {count : Nat} {scope next : Scope} {item : Item}
    (starts : scope.Starts draft count) (takes : scope.Takes item next) :
    next.Starts draft count := by
  cases takes with
  | declare => cases starts
  | annotateClass one =>
    cases starts with
    | ended starts => exact .ended starts
  | annotateMethod one =>
    cases starts with
    | isOpen place start => exact .isOpen place start
    | behind starts => exact .behind starts
  | begin named described =>
    cases starts with
    | ended starts => exact .behind starts
  | @finish listing open_ operands method finished =>
    apply Scope.Starts.ended
    cases starts with
    | isOpen place start =>
      refine ⟨method, open_, ?_, by rw [(finish_eq_ok_iff.1 finished).2], start⟩
      rw [← place, List.getElem?_concat_length]
    | behind starts =>
      rcases starts with ⟨earlier, later, found, body, start⟩
      refine ⟨earlier, later, ?_, body, start⟩
      rw [List.getElem?_append_left (List.getElem?_eq_some_iff.1 found).1, found]
  | @add listing open_ item node spells fresh =>
    cases starts with
    | isOpen place start => exact .isOpen place (start.trans (open_.prefix_push node))
    | behind starts => exact .behind starts

theorem Scope.Starts.runs {count : Nat} {scope final : Scope} {items : List Item}
    (starts : scope.Starts draft count) (runs : scope.Runs items final) :
    final.Starts draft count := by
  induction runs with
  | nil => exact starts
  | cons takes _ ih => exact ih (starts.takes takes)

/-- A node that has been added stands in its place in the method, by the numbers that its labels
    have since then. -/
theorem MethodStarts.get? {count : Nat} (starts : MethodStarts (draft.push node) count listing) :
    ∃ method, listing.methods[count]? = some method ∧
      method.body.get? draft.nodes.size = some (node.mapLabels (draft.push node).number) := by
  rcases starts with ⟨method, later, found, body, start⟩
  have nodes : (draft.push node).nodes.toList = draft.nodes.toList ++ [node] := Array.toList_push
  have here : later.nodes[draft.nodes.size]? = some node := by
    rcases start with ⟨more, whole⟩
    rw [← Array.getElem?_toList, ← whole, nodes, ← Array.length_toList, List.append_assoc,
      List.getElem?_append_right (Nat.le_refl _), Nat.sub_self]
    rfl
  have numbers : node.mapLabels later.number = node.mapLabels (draft.push node).number := by
    apply Insn.mapLabels_congr
    intro name mem
    apply Draft.number_eq_of_prefix start
    rw [nodes]
    exact List.mem_flatMap.2 ⟨node, by simp, mem⟩
  refine ⟨method, found, ?_⟩
  rw [body, Body.get?, ← numbers, Draft.body, Array.getElem?_map, here]
  rfl

/-! ## Whole switches -/

/-- The lines of a switch put a node into the method exactly if its cases and its default make
    it. -/
theorem WritesSwitch.readsNode_iff
    (written : WritesSwitch kind cases otherwise header caseLines last)
    (split : numberedLines text = front ++ header :: (caseLines ++ last :: back))
    (reached : front.foldlM State.step State.initial = .ok (.ready (.inMethod listing draft))) :
    ReadsNode text listing draft (front ++ header :: (caseLines ++ [last])) back node ↔
      OpenSwitch.close ⟨header, kind, cases.reverse⟩ otherwise = .ok node := by
  have alone : (front ++ header :: (caseLines ++ [last])).foldlM State.step State.initial =
      header.check (OpenSwitch.close ⟨header, kind, cases.reverse⟩ otherwise) >>= fun node =>
        .ok (.ready (.inMethod listing (draft.push node))) := by
    rw [List.foldlM_append, reached, ok_bind, written.foldlM]
    rfl
  constructor
  · intro reads
    have read := alone.symm.trans reads.read
    rcases bind_eq_ok_iff.1 read with ⟨made, closed, same⟩
    have pushed : draft.push made = draft.push node := by simpa using same
    have behind : made = node := by simpa [Draft.push] using congrArg (·.nodes.back?) pushed
    rw [← behind, check_eq_ok_iff.1 closed]
  · intro made
    have goesOn : parse text =
        back.foldlM State.step (.ready (.inMethod listing (draft.push node))) >>= State.finish := by
      rw [parse, split, List.foldlM_append, reached, ok_bind, written.foldlM,
        check_eq_ok_iff.2 made, ok_bind]
    refine ⟨by rw [alone, check_eq_ok_iff.2 made, ok_bind], goesOn, ?_⟩
    intro whole read
    rw [goesOn, bind_eq_ok_iff] at read
    rcases read with ⟨state, rest, finished⟩
    rw [State.finish_eq_ok_iff.1 finished] at rest
    rcases exists_runs_of_foldlM rest with ⟨items, -, runs⟩
    have starts : (Scope.inMethod listing (draft.push node)).Starts (draft.push node)
        listing.methods.length := .isOpen rfl (List.prefix_refl _)
    cases starts.runs runs with
    | ended starts => exact starts.get?

/-- A switch that stands in a method is read with the cases that are written, in their order. With
    any keys it is a node of its own; a table has to count up from its first key, and it is refused
    by its first line if it does not. -/
theorem parse_switch
    (split : numberedLines text = front ++ header :: (caseLines ++ last :: back))
    (reached : front.foldlM State.step State.initial = .ok (.ready (.inMethod listing draft)))
    (written : WritesSwitch kind cases otherwise header caseLines last) :
    let keys := cases.map Prod.fst
    let labels := cases.map Prod.snd
    let lines := front ++ header :: (caseLines ++ [last])
    (kind = .lookup → ∀ node, ReadsNode text listing draft lines back node ↔
      node = .lookupSwitch keys labels otherwise) ∧
    (kind = .table →
      (∀ node, ReadsNode text listing draft lines back node ↔
        ∃ first final, CountUp first keys ∧ keys.getLast? = some final ∧
          node = .tableSwitch first final labels otherwise) ∧
      ((∀ first, ¬ CountUp first keys) → parse text =
        .error (.atLine header
          (if cases = [] then .tableWithoutCases else .tableNotConsecutive)))) := by
  intro keys labels lines
  refine ⟨?_, ?_⟩
  · intro isLookup node
    subst isLookup
    rw [written.readsNode_iff split reached, close_lookup, Except.ok.injEq]
    exact eq_comm
  intro isTable
  subst isTable
  refine ⟨?_, ?_⟩
  · intro node
    exact (written.readsNode_iff split reached).trans close_table_eq_ok_iff
  · intro broken
    rw [parse, split, List.foldlM_append, reached, ok_bind, written.foldlM,
      close_table_of_not_countUp header otherwise broken]
    rfl

/-- Keys of a lookup stand in any order and come twice, and a label that is mentioned in front of it
    keeps its number; a table with a gap is told by its first line. -/
theorem parse_switch_twins :
    let front := "class C\nmethod m ()V\nIFEQ L7\n"
    let text :=
      front ++ "\tLOOKUPSWITCH \n 5 :\u00a0L9 \n-1:L7\n+05: L9\t\n\u3000default :L7\nL9\nL7\nend\n"
    let text' := front ++ " TABLESWITCH\n-1: L9\n+1: L7\ndefault: L9\nL9\n"
    (∃ whole method, parse text = .ok whole ∧ whole.methods[0]? = some method ∧
      method.body.get? 1 = some (.lookupSwitch [5, -1, 5] [⟨1⟩, ⟨0⟩, ⟨1⟩] ⟨0⟩)) ∧
    parse text' = .error (.atLine ⟨4, " TABLESWITCH"⟩ .tableNotConsecutive) := by
  intro front text text'
  have reached : (numberedLines front).foldlM State.step State.initial =
      .ok (.ready (.inMethod ⟨"C", [], []⟩ ⟨"m", "()V", #[.jump .ifeq "L7"]⟩)) := by
    decide +kernel
  have written : WritesSwitch .lookup [(5, "L9"), (-1, "L7"), (5, "L9")] "L7" ⟨4, "\tLOOKUPSWITCH "⟩
      [⟨5, " 5 :\u00a0L9 "⟩, ⟨6, "-1:L7"⟩, ⟨7, "+05: L9\t"⟩] ⟨8, "\u3000default :L7"⟩ := by
    refine ⟨⟨[], by decide +kernel, Text.words_nil⟩, ?_, by decide, ?_⟩
    · refine .cons ⟨by decide, ['5'], by decide, ?_⟩ (.cons ⟨by decide, ['-', '1'], by decide, ?_⟩
        (.cons ⟨by decide, ['+', '0', '5'], by decide, ?_⟩ .nil))
      · exact ⟨[' '], [' '], ['\u00a0'], [' '], rfl, List.all_eq_true.1 (by decide)⟩
      · exact ⟨[], [], [], [], rfl, List.all_eq_true.1 (by decide)⟩
      · exact ⟨[], [], [' '], ['\t'], rfl, List.all_eq_true.1 (by decide)⟩
    · exact ⟨['\u3000'], [' '], [], [], rfl, List.all_eq_true.1 (by decide)⟩
  have written' : WritesSwitch .table [(-1, "L9"), (1, "L7")] "L9" ⟨4, " TABLESWITCH"⟩
      [⟨5, "-1: L9"⟩, ⟨6, "+1: L7"⟩] ⟨7, "default: L9"⟩ := by
    refine ⟨⟨[], by decide +kernel, Text.words_nil⟩, ?_, by decide, ?_⟩
    · refine .cons ⟨by decide, ['-', '1'], by decide, ?_⟩
        (.cons ⟨by decide, ['+', '1'], by decide, ?_⟩ .nil)
      · exact ⟨[], [], [' '], [], rfl, List.all_eq_true.1 (by decide)⟩
      · exact ⟨[], [], [' '], [], rfl, List.all_eq_true.1 (by decide)⟩
    · exact ⟨[], [], [' '], [], rfl, List.all_eq_true.1 (by decide)⟩
  have gap : ∀ first, ¬ CountUp first [-1, 1] := by
    rintro first ⟨isFirst, counted⟩
    cases Option.some.inj isFirst
    exact absurd (counted 1 1 rfl) (by decide)
  have split : numberedLines text = numberedLines front ++ ⟨4, "\tLOOKUPSWITCH "⟩ ::
      ([⟨5, " 5 :\u00a0L9 "⟩, ⟨6, "-1:L7"⟩, ⟨7, "+05: L9\t"⟩] ++ ⟨8, "\u3000default :L7"⟩ ::
        [⟨9, "L9"⟩, ⟨10, "L7"⟩, ⟨11, "end"⟩]) := by
    decide +kernel
  have split' : numberedLines text' = numberedLines front ++ ⟨4, " TABLESWITCH"⟩ ::
      ([⟨5, "-1: L9"⟩, ⟨6, "+1: L7"⟩] ++ ⟨7, "default: L9"⟩ :: [⟨8, "L9"⟩]) := by
    decide +kernel
  have reads := ((parse_switch split reached written).1 rfl _).2 rfl
  have refused := ((parse_switch split' reached written').2 rfl).2 gap
  have accepted : (parse text).toBool = true := by decide +kernel
  cases read : parse text with
  | error fault =>
    rw [read] at accepted
    cases accepted
  | ok whole =>
    rcases reads.stands whole read with ⟨method, found, here⟩
    exact ⟨⟨whole, method, rfl, found, here⟩, refused⟩

end BranchSieve.Listing
