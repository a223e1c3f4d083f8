import BranchSieve.Listing.Parser
import BranchSieve.Proofs.Listing.Spelling

/-!
# A run over items

What the reader does between two items is a step from scope to scope. A text is read line by line
with a result exactly if its lines are read as items and the scopes of a run lead from one item to
the next. The line numbers, which only errors show, are gone.
-/

namespace BranchSieve.Listing

open Text (isBlank splitFirst trim words)

/-- A scope takes an item and becomes another one. -/
inductive Scope.Takes [Overflow] : Scope → Item → Scope → Prop where
  | declare {operands name : List Char} (one : words operands = [name]) :
      Takes .outside (.declare operands) (.inClass ⟨String.ofList name, [], []⟩)
  | annotateClass {listing : ClassListing} {operands type : List Char}
      (one : words operands = [type]) :
      Takes (.inClass listing) (.annotate operands)
        (.inClass { listing with annotations := listing.annotations ++ [String.ofList type] })
  | annotateMethod {listing : ClassListing} {draft : Draft} {operands type : List Char}
      (one : words operands = [type]) :
      Takes (.inMethod listing draft) (.annotate operands)
        (.inMethod
          { listing with annotations := listing.annotations ++ [String.ofList type] } draft)
  | begin {listing : ClassListing} {operands : List Char} (named : (splitFirst operands).1 ≠ [])
      (described : (splitFirst operands).2 ≠ []) :
      Takes (.inClass listing) (.begin operands)
        (.inMethod listing ⟨String.ofList (splitFirst operands).1,
          String.ofList (splitFirst operands).2, #[]⟩)
  | finish {listing : ClassListing} {draft : Draft} {operands : List Char} {method : Method}
      (finished : draft.finish = .ok method) :
      Takes (.inMethod listing draft) (.finish operands)
        (.inClass { listing with methods := listing.methods ++ [method] })
  | add {listing : ClassListing} {draft : Draft} {item : Item} {node : Insn String}
      (spells : item.Spells node)
      (fresh : ∀ label, node = .label label → .label label ∉ draft.nodes.toList) :
      Takes (.inMethod listing draft) item (.inMethod listing (draft.push node))

/-- The items of a list are taken one by one. -/
inductive Scope.Runs [Overflow] : Scope → List Item → Scope → Prop where
  | nil {scope : Scope} : Runs scope [] scope
  | cons {scope next final : Scope} {item : Item} {items : List Item}
      (takes : scope.Takes item next) (rest : Runs next items final) :
      Runs scope (item :: items) final

theorem Scope.runs_nil_iff [Overflow] {scope final : Scope} :
    scope.Runs [] final ↔ scope = final := by
  constructor
  · intro h
    cases h
    rfl
  · intro same
    subst same
    exact .nil

theorem Scope.runs_cons_iff [Overflow] {scope final : Scope} {item : Item} {items : List Item} :
    scope.Runs (item :: items) final ↔ ∃ next, scope.Takes item next ∧ next.Runs items final := by
  constructor
  · intro h
    rcases h with _ | ⟨takes, rest⟩
    exact ⟨_, takes, rest⟩
  · intro h
    rcases h with ⟨next, takes, rest⟩
    exact .cons takes rest

theorem Scope.runs_append_iff [Overflow] {scope final : Scope} {front back : List Item} :
    scope.Runs (front ++ back) final ↔ ∃ next, scope.Runs front next ∧ next.Runs back final := by
  induction front generalizing scope with
  | nil => simp [runs_nil_iff]
  | cons item front ih =>
    simp only [List.cons_append, runs_cons_iff, ih]
    constructor
    · intro h
      rcases h with ⟨between, takes, next, one, two⟩
      exact ⟨next, ⟨between, takes, one⟩, two⟩
    · intro h
      rcases h with ⟨next, ⟨between, takes, one⟩, two⟩
      exact ⟨between, takes, next, one, two⟩

/-! ## A line outside of a switch -/

section Line

variable {line : Line} {scope : Scope} {state : State} {keyword operands : List Char}

theorem isSkipped_eq_true_iff {text : List Char} :
    isSkipped text = true ↔ trim text = [] ∨ ['/', '/'].isPrefixOf (trim text) = true := by
  rw [isSkipped, Bool.or_eq_true, decide_eq_true_eq]

theorem read_of_isSkipped {text : List Char} (h : isSkipped text = true) :
    Statement.read text = .blank :=
  if_pos (isSkipped_eq_true_iff.1 h)

theorem read_of_split {text : List Char} (shown : isSkipped text = false)
    (split : splitFirst (trim text) = (keyword, operands)) :
    Statement.read text =
      if keyword = "class".toList then .declareClass operands
      else if keyword = "annotation".toList then .annotate operands
      else if keyword = "method".toList then .beginMethod operands
      else if keyword = "end".toList then .endMethod
      else .instruction keyword operands := by
  have visible : ¬ (trim text = [] ∨ ['/', '/'].isPrefixOf (trim text) = true) := by
    rw [← isSkipped_eq_true_iff, shown]
    exact Bool.false_ne_true
  unfold Statement.read
  rw [if_neg visible, split]

/-- A line whose first word starts no comment is no comment. -/
theorem isSkipped_of_splitFirst {text : List Char}
    (split : splitFirst (trim text) = (keyword, operands)) (nonempty : keyword ≠ [])
    (noComment : keyword.head? ≠ some '/') : isSkipped text = false := by
  have first : (trim text).takeWhile (!isBlank ·) = keyword := congrArg Prod.fst split
  unfold isSkipped
  cases trimmed : trim text with
  | nil =>
    rw [trimmed] at first
    exact absurd first.symm nonempty
  | cons c rest =>
    have other : c ≠ '/' := by
      intro same
      subst same
      rw [trimmed, List.takeWhile_cons_of_pos (by decide)] at first
      rw [← first] at noComment
      exact noComment rfl
    simp [List.isPrefixOf, Ne.symm other]

theorem check_eq_ok_iff {α : Type} {result : Except Fault α} {a : α} :
    line.check result = .ok a ↔ result = .ok a :=
  mapError_eq_ok_iff

theorem check_eq_error_iff {α : Type} {result : Except Fault α} {error : ParseError} :
    line.check result = .error error ↔
      ∃ fault, result = .error fault ∧ .atLine line fault = error :=
  mapError_eq_error_iff

theorem add_eq_ok_iff {draft next : Draft} {node : Insn String} :
    draft.add node = .ok next ↔
      next = draft.push node ∧
        ∀ label, node = .label label → .label label ∉ draft.nodes.toList := by
  unfold Draft.add
  split
  · next label =>
    have placed : draft.places label = true ↔ .label label ∈ draft.nodes.toList := by
      simp [Draft.places]
    split
    · next twice =>
      apply iff_of_false (by simp)
      intro given
      rcases given with ⟨-, fresh⟩
      exact fresh label rfl (placed.1 twice)
    · next once =>
      constructor
      · intro h
        refine ⟨(Except.ok.inj h).symm, ?_⟩
        intro _ given
        cases given
        exact fun mem => once (placed.2 mem)
      · intro given
        rcases given with ⟨rfl, -⟩
        rfl
  · next other =>
    constructor
    · intro h
      exact ⟨(Except.ok.inj h).symm, fun label same => absurd same (other label)⟩
    · intro given
      rcases given with ⟨rfl, -⟩
      rfl

theorem declareClass_eq_ok_iff [Overflow] {next : Scope} :
    scope.declareClass operands = .ok next ↔ scope.Takes (.declare operands) next := by
  cases scope with
  | outside =>
    simp only [Scope.declareClass, bind_eq_ok_iff, readOneWord_eq_ok_iff, pure_eq_ok_iff]
    constructor
    · intro given
      rcases given with ⟨name, one, rfl⟩
      exact .declare one
    · intro h
      cases h with
      | declare one => exact ⟨_, one, rfl⟩
  | inClass listing => exact iff_of_false (by simp [Scope.declareClass]) (by rintro ⟨⟩)
  | inMethod listing draft =>
    apply iff_of_false (by simp [Scope.declareClass])
    intro h
    cases h with
    | add spells => cases spells

theorem annotate_eq_ok_iff [Overflow] {next : Scope} :
    scope.annotate operands = .ok next ↔ scope.Takes (.annotate operands) next := by
  cases scope with
  | outside => exact iff_of_false (by simp [Scope.annotate]) (by rintro ⟨⟩)
  | inClass listing =>
    simp only [Scope.annotate, map_eq_ok_iff, bind_eq_ok_iff, readOneWord_eq_ok_iff, pure_eq_ok_iff]
    constructor
    · intro given
      rcases given with ⟨_, ⟨type, one, rfl⟩, rfl⟩
      exact .annotateClass one
    · intro h
      cases h with
      | annotateClass one => exact ⟨_, ⟨_, one, rfl⟩, rfl⟩
  | inMethod listing draft =>
    simp only [Scope.annotate, map_eq_ok_iff, bind_eq_ok_iff, readOneWord_eq_ok_iff, pure_eq_ok_iff]
    constructor
    · intro given
      rcases given with ⟨_, ⟨type, one, rfl⟩, rfl⟩
      exact .annotateMethod one
    · intro h
      cases h with
      | annotateMethod one => exact ⟨_, ⟨_, one, rfl⟩, rfl⟩
      | add spells => cases spells

theorem beginMethod_eq_ok_iff [Overflow] {next : Scope} :
    scope.beginMethod line operands = .ok next ↔ scope.Takes (.begin operands) next := by
  cases scope with
  | outside => exact iff_of_false (by simp [Scope.beginMethod]) (by rintro ⟨⟩)
  | inClass listing =>
    unfold Scope.beginMethod
    dsimp only
    constructor
    · intro h
      split at h
      · simp at h
      · next both =>
        obtain ⟨named, described⟩ := not_or.1 both
        obtain rfl := Except.ok.inj h
        exact .begin named described
    · intro h
      cases h with
      | begin named described => rw [if_neg (not_or.2 ⟨named, described⟩)]
  | inMethod listing draft =>
    apply iff_of_false (by simp [Scope.beginMethod])
    intro h
    cases h with
    | add spells => cases spells

/-- A method ends exactly if each label that it mentions is placed. -/
theorem finish_eq_ok_iff {draft : Draft} {method : Method} :
    draft.finish = .ok method ↔
      (∀ label ∈ draft.nodes.toList.flatMap Insn.labels, .label label ∈ draft.nodes.toList) ∧
        method = ⟨draft.name, draft.descriptor, draft.body⟩ := by
  have defined : draft.undefinedLabel? = none ↔
      ∀ label ∈ draft.nodes.toList.flatMap Insn.labels, .label label ∈ draft.nodes.toList := by
    simp [Draft.undefinedLabel?, Draft.labelNames, Draft.places, List.mem_eraseDups]
  rw [← defined, Draft.finish]
  cases draft.undefinedLabel? with
  | none => simp [eq_comm]
  | some label => simp

theorem endMethod_eq_ok_iff [Overflow] {next : Scope} :
    scope.endMethod line = .ok next ↔ scope.Takes (.finish operands) next := by
  cases scope with
  | outside => exact iff_of_false (by simp [Scope.endMethod]) (by rintro ⟨⟩)
  | inClass listing => exact iff_of_false (by simp [Scope.endMethod]) (by rintro ⟨⟩)
  | inMethod listing draft =>
    simp only [Scope.endMethod, bind_eq_ok_iff, pure_eq_ok_iff]
    constructor
    · intro given
      rcases given with ⟨method, finished, rfl⟩
      exact .finish finished
    · intro h
      cases h with
      | finish finished => exact ⟨_, finished, rfl⟩
      | add spells => cases spells

/-- An instruction line that is no switch adds the node that it spells. -/
theorem addInstruction_eq_ok_iff [Overflow] (single : ∀ kind : SwitchKind, keyword ≠ kind.keyword) :
    scope.addInstruction line keyword operands = .ok state ↔
      ∃ next, scope.Takes (.instruction keyword operands) next ∧ state = .ready next := by
  cases scope with
  | outside => exact iff_of_false (by simp [Scope.addInstruction]) (by rintro ⟨_, ⟨⟩, -⟩)
  | inClass listing => exact iff_of_false (by simp [Scope.addInstruction]) (by rintro ⟨_, ⟨⟩, -⟩)
  | inMethod listing draft =>
    simp only [Scope.addInstruction, bind_eq_ok_iff]
    constructor
    · intro given
      rcases given with ⟨instruction, read, h⟩
      cases instruction with
      | node node =>
        obtain ⟨next, added, h⟩ := bind_eq_ok_iff.1 h
        obtain ⟨rfl, fresh⟩ := add_eq_ok_iff.1 added
        exact ⟨_, .add (.instruction (readInstruction_eq_ok_node_iff.1 read)) fresh,
          (pure_eq_ok_iff.1 h).symm⟩
      | switch kind => exact absurd (readInstruction_eq_ok_switch_iff.1 read).1 (single kind)
    · intro given
      rcases given with ⟨_, takes, rfl⟩
      cases takes with
      | add spells fresh =>
        cases spells with
        | instruction spells =>
          exact ⟨_, readInstruction_eq_ok_node_iff.2 spells,
            bind_eq_ok_iff.2 ⟨_, add_eq_ok_iff.2 ⟨rfl, fresh⟩, rfl⟩⟩

/-- A line that is an item is taken as the item. -/
theorem step_line_iff [Overflow] (shown : isSkipped line.text.toList = false)
    (split : splitFirst (trim line.text.toList) = (keyword, operands))
    (single : ∀ kind : SwitchKind, keyword ≠ kind.keyword) :
    scope.step line = .ok state ↔
      ∃ next, scope.Takes (.ofLine keyword operands) next ∧ state = .ready next := by
  have ready : ∀ {result : Except ParseError Scope} {item : Item},
      (∀ next, result = .ok next ↔ scope.Takes item next) →
        (result.map State.ready = .ok state ↔
          ∃ next, scope.Takes item next ∧ state = .ready next) := by
    intro result item same
    simp only [map_eq_ok_iff, same, eq_comm]
  unfold Scope.step Item.ofLine
  rw [read_of_split shown split]
  by_cases isClass : keyword = "class".toList
  · rw [if_pos isClass, if_pos isClass]
    exact ready fun next => check_eq_ok_iff.trans declareClass_eq_ok_iff
  rw [if_neg isClass, if_neg isClass]
  by_cases isAnnotation : keyword = "annotation".toList
  · rw [if_pos isAnnotation, if_pos isAnnotation]
    exact ready fun next => check_eq_ok_iff.trans annotate_eq_ok_iff
  rw [if_neg isAnnotation, if_neg isAnnotation]
  by_cases isMethod : keyword = "method".toList
  · rw [if_pos isMethod, if_pos isMethod]
    exact ready fun next => beginMethod_eq_ok_iff
  rw [if_neg isMethod, if_neg isMethod]
  by_cases isEnd : keyword = "end".toList
  · rw [if_pos isEnd, if_pos isEnd]
    exact ready fun next => endMethod_eq_ok_iff
  rw [if_neg isEnd, if_neg isEnd]
  exact check_eq_ok_iff.trans (addInstruction_eq_ok_iff single)

/-- The first word of a switch is none of the words that make a class. -/
theorem keyword_spelling (kind : SwitchKind) :
    kind.keyword ≠ "class".toList ∧ kind.keyword ≠ "annotation".toList ∧
      kind.keyword ≠ "method".toList ∧ kind.keyword ≠ "end".toList := by
  cases kind <;> decide

/-- The first line of a switch is no node. -/
theorem not_spellsNode_keyword {kind : SwitchKind} {node : Insn String} :
    ¬ SpellsNode kind.keyword operands node := by
  rw [← readInstruction_eq_ok_node_iff, SwitchKind.keyword, readInstruction_mnemonic,
    readOperands_eq_ok_node_iff]
  cases kind <;> exact id

/-- The first line of a switch is read in a method. -/
theorem step_switch_iff {kind : SwitchKind} (shown : isSkipped line.text.toList = false)
    (split : splitFirst (trim line.text.toList) = (kind.keyword, operands)) :
    scope.step line = .ok state ↔
      ∃ listing draft, scope = .inMethod listing draft ∧ words operands = [] ∧
        state = .inSwitch listing draft ⟨line, kind, []⟩ := by
  obtain ⟨noClass, noAnnotation, noMethod, noEnd⟩ := keyword_spelling kind
  unfold Scope.step
  rw [read_of_split shown split, if_neg noClass, if_neg noAnnotation, if_neg noMethod, if_neg noEnd]
  refine check_eq_ok_iff.trans ?_
  cases scope with
  | outside => exact iff_of_false (by simp [Scope.addInstruction]) (by rintro ⟨_, _, ⟨⟩, -⟩)
  | inClass listing => exact iff_of_false (by simp [Scope.addInstruction]) (by rintro ⟨_, _, ⟨⟩, -⟩)
  | inMethod listing draft =>
    simp only [Scope.addInstruction, bind_eq_ok_iff]
    constructor
    · intro given
      rcases given with ⟨instruction, read, h⟩
      cases instruction with
      | node node => exact absurd (readInstruction_eq_ok_node_iff.1 read) not_spellsNode_keyword
      | switch kind' =>
        obtain ⟨same, bare⟩ := readInstruction_eq_ok_switch_iff.1 read
        obtain rfl : kind = kind' := by
          cases kind <;> cases kind' <;> first | rfl | exact absurd same (by decide)
        exact ⟨listing, draft, rfl, bare, (pure_eq_ok_iff.1 h).symm⟩
    · intro given
      rcases given with ⟨_, _, ⟨⟩, bare, rfl⟩
      exact ⟨_, readInstruction_eq_ok_switch_iff.2 ⟨rfl, bare⟩, rfl⟩

end Line

/-! ## The lines of a switch -/

/-- A key is no default. -/
theorem not_isDefault_of_spellsCase {line : List Char} {key : Int32} {label : String}
    (h : SpellsCase line key label) : ¬ IsDefault line := by
  obtain ⟨digits, ⟨before, target, split, first, same, -⟩, number⟩ := h
  intro given
  rcases given with ⟨before', target', split', first', isDefault⟩
  have cut := Text.splitAt?_singleton_eq_some_iff.2 ⟨split, first⟩
  have cut' := Text.splitAt?_singleton_eq_some_iff.2 ⟨split', first'⟩
  obtain ⟨rfl, -⟩ := Prod.mk.inj (Option.some.inj (cut.symm.trans cut'))
  have none_read : Text.int32? "default".toList = none := by decide
  rw [← same, isDefault, none_read] at number
  simp at number

theorem isDefault_of_spellsTarget {line : List Char} {label : String}
    (h : SpellsTarget line "default".toList label) : IsDefault line := by
  obtain ⟨before, target, split, first, same, -⟩ := h
  exact ⟨before, target, split, first, same⟩

theorem forall_not_isDefault_of_spelled {lines : List Line} {cases : List (Int32 × String)}
    (spelled :
      List.Forall₂ (fun line case => SpellsCase line.text.toList case.1 case.2) lines cases) :
    ∀ text ∈ lines.map (·.text.toList), ¬ IsDefault text := by
  induction spelled with
  | nil => simp
  | cons spells _ ih =>
    rw [List.map_cons, List.forall_mem_cons]
    exact ⟨not_isDefault_of_spellsCase spells, ih⟩

/-- A case is put behind the others. -/
theorem step_case [Overflow] {line : Line} {key : Int32} {label : String} {listing : ClassListing}
    {draft : Draft} {switch : OpenSwitch} (spells : SpellsCase line.text.toList key label) :
    (State.inSwitch listing draft switch).step line =
      .ok (.inSwitch listing draft (switch.push key label)) := by
  have read : readCase line.text.toList = .ok (.entry key label) :=
    readCase_eq_ok_iff.2 (.inl ⟨key, label, spells, rfl⟩)
  apply bind_eq_ok_iff.2
  exact ⟨_, check_eq_ok_iff.2 read, rfl⟩

/-- The default closes the switch. -/
theorem step_default [Overflow] {last : Line} {otherwise : String} {listing : ClassListing}
    {draft : Draft} {switch : OpenSwitch}
    (spells : SpellsTarget last.text.toList "default".toList otherwise) :
    (State.inSwitch listing draft switch).step last =
      (switch.header.check (switch.close otherwise)).map fun node =>
        .ready (.inMethod listing (draft.push node)) := by
  have read : readCase last.text.toList = .ok (.otherwise otherwise) :=
    readCase_eq_ok_iff.2 (.inr ⟨otherwise, spells, rfl⟩)
  rw [State.step, check_eq_ok_iff.2 read, ok_bind]
  dsimp only
  cases switch.header.check (switch.close otherwise) with
  | error fault => rfl
  | ok node => rfl

/-- The reader goes on behind a switch exactly if lines of cases and a default come next. -/
theorem foldlM_inSwitch_iff [Overflow] {lines : List Line} {listing : ClassListing} {draft : Draft}
    {switch : OpenSwitch} {final : Scope} :
    lines.foldlM State.step (.inSwitch listing draft switch) = .ok (.ready final) ↔
      ∃ front otherwise back cases label node,
        lines = front ++ otherwise :: back ∧
        List.Forall₂ (fun line case => SpellsCase line.text.toList case.1 case.2) front cases ∧
        SpellsTarget otherwise.text.toList "default".toList label ∧
        SpellsSwitch switch.kind (switch.reversedCases.reverse ++ cases) label node ∧
        back.foldlM State.step (.ready (.inMethod listing (draft.push node))) =
          .ok (.ready final) := by
  induction lines generalizing switch with
  | nil =>
    apply iff_of_false (by simp [pure, Except.pure])
    intro h
    rcases h with ⟨_, _, _, _, _, _, split, -⟩
    simp at split
  | cons line lines ih =>
    rw [List.foldlM_cons, bind_eq_ok_iff]
    constructor
    · intro h
      rcases h with ⟨state, here, rest⟩
      obtain ⟨case, read, here⟩ := bind_eq_ok_iff.1 here
      rcases readCase_eq_ok_iff.1 (check_eq_ok_iff.1 read) with
        ⟨key, label, spells, rfl⟩ | ⟨label, spells, rfl⟩
      · obtain rfl := pure_eq_ok_iff.1 here
        obtain ⟨front, otherwise, back, cases, label', node, rfl, spelled, closed, made, rest⟩ :=
          ih.1 rest
        refine ⟨line :: front, otherwise, back, (key, label) :: cases, label', node, rfl,
          .cons spells spelled, closed, ?_, rest⟩
        simpa [OpenSwitch.push] using made
      · obtain ⟨node, made, here⟩ := bind_eq_ok_iff.1 here
        obtain rfl := pure_eq_ok_iff.1 here
        refine ⟨[], line, lines, [], label, node, rfl, .nil, spells, ?_, rest⟩
        simpa using close_eq_ok_iff.1 (check_eq_ok_iff.1 made)
    · intro h
      rcases h with ⟨front, otherwise, back, cases, label, node, split, spelled, closed, made, rest⟩
      cases spelled with
      | nil =>
        obtain ⟨rfl, rfl⟩ := List.cons.inj split
        have closes : switch.close label = .ok node := close_eq_ok_iff.2 (by simpa using made)
        refine ⟨.ready (.inMethod listing (draft.push node)), ?_, rest⟩
        rw [step_default closed, check_eq_ok_iff.2 closes]
        rfl
      | @cons _ case front cases spells spelled =>
        obtain ⟨rfl, rfl⟩ := List.cons.inj split
        refine ⟨_, step_case spells,
          ih.2 ⟨front, otherwise, back, cases, label, node, rfl, spelled, closed, ?_, rest⟩⟩
        simpa [OpenSwitch.push] using made

/-! ## The lines of a text -/

/-- Lines that are read with a result are items, and the scope takes them. -/
theorem exists_runs_of_foldlM [Overflow] {lines : List Line} {scope final : Scope}
    (h : lines.foldlM State.step (.ready scope) = .ok (.ready final)) :
    ∃ items, Itemizes (lines.map (·.text.toList)) items ∧ scope.Runs items final := by
  -- A switch takes several lines at once, so the induction is on the number of lines.
  induction count : lines.length using Nat.strong_induction_on generalizing lines scope with
  | _ count ih =>
    subst count
    cases lines with
    | nil =>
      obtain rfl := State.ready.inj (pure_eq_ok_iff.1 h)
      exact ⟨[], .nil, .nil⟩
    | cons line lines =>
      rw [List.foldlM_cons, bind_eq_ok_iff] at h
      obtain ⟨state, here, h⟩ := h
      change scope.step line = .ok state at here
      by_cases skipped : isSkipped line.text.toList = true
      · rw [Scope.step, read_of_isSkipped skipped] at here
        obtain rfl := Except.ok.inj here
        obtain ⟨items, itemized, runs⟩ := ih lines.length (Nat.lt_succ_self _) h rfl
        exact ⟨items, .skip skipped itemized, runs⟩
      · have shown : isSkipped line.text.toList = false := Bool.eq_false_iff.2 skipped
        rcases split : splitFirst (trim line.text.toList) with ⟨keyword, operands⟩
        by_cases single : ∀ kind : SwitchKind, keyword ≠ kind.keyword
        · obtain ⟨next, takes, rfl⟩ := (step_line_iff shown split single).1 here
          obtain ⟨items, itemized, runs⟩ := ih lines.length (Nat.lt_succ_self _) h rfl
          exact ⟨_, .line shown split single itemized, .cons takes runs⟩
        · obtain ⟨kind, same⟩ := not_forall_not.1 single
          subst same
          obtain ⟨listing, draft, rfl, bare, rfl⟩ := (step_switch_iff shown split).1 here
          obtain ⟨front, otherwise, back, cases, label, node, rfl, spelled, closed, made, h⟩ :=
            foldlM_inSwitch_iff.1 h
          obtain ⟨items, itemized, runs⟩ := ih back.length (by simp; omega) h rfl
          refine ⟨.switch kind operands (front.map (·.text.toList)) otherwise.text.toList :: items,
            ?_, .cons (.add (.switch bare ?_ closed made) ?_) runs⟩
          · rw [List.map_cons, List.map_append, List.map_cons]
            refine .switch shown split ?_ (isDefault_of_spellsTarget closed) itemized
            exact forall_not_isDefault_of_spelled spelled
          · exact List.forall₂_map_left_iff.2 spelled
          · intro label equal
            subst equal
            cases made

/-- Items that the scope takes are read with a result. -/
theorem foldlM_of_runs [Overflow] {lines : List Line} {texts : List (List Char)} {items : List Item}
    {scope final : Scope} (itemized : Itemizes texts items)
    (same : lines.map (·.text.toList) = texts) (runs : scope.Runs items final) :
    lines.foldlM State.step (.ready scope) = .ok (.ready final) := by
  induction itemized generalizing lines scope with
  | nil =>
    obtain rfl := List.map_eq_nil_iff.1 same
    obtain rfl := Scope.runs_nil_iff.1 runs
    rfl
  | skip skipped _ ih =>
    obtain ⟨line, lines, rfl, rfl, rest⟩ := List.map_eq_cons_iff.1 same
    rw [List.foldlM_cons, bind_eq_ok_iff]
    refine ⟨.ready scope, ?_, ih rest runs⟩
    change scope.step line = _
    rw [Scope.step, read_of_isSkipped skipped]
  | line shown split single _ ih =>
    obtain ⟨line, lines, rfl, rfl, rest⟩ := List.map_eq_cons_iff.1 same
    obtain ⟨next, takes, runs⟩ := Scope.runs_cons_iff.1 runs
    rw [List.foldlM_cons, bind_eq_ok_iff]
    exact ⟨.ready next, (step_line_iff shown split single).2 ⟨next, takes, rfl⟩, ih rest runs⟩
  | switch shown split before closed _ ih =>
    obtain ⟨line, lines, rfl, rfl, behind⟩ := List.map_eq_cons_iff.1 same
    obtain ⟨front, others, rfl, rfl, last⟩ := List.map_eq_append_iff.1 behind
    obtain ⟨otherwise, back, rfl, rfl, rest⟩ := List.map_eq_cons_iff.1 last
    obtain ⟨next, takes, runs⟩ := Scope.runs_cons_iff.1 runs
    cases takes with
    | add spells fresh =>
      cases spells with
      | switch bare spelled closed made =>
        rw [List.foldlM_cons, bind_eq_ok_iff]
        refine ⟨_, (step_switch_iff shown split).2 ⟨_, _, rfl, bare, rfl⟩,
          foldlM_inSwitch_iff.2 ⟨front, otherwise, back, _, _, _, rfl,
            List.forall₂_map_left_iff.1 spelled, closed, made, ih rest runs⟩⟩

/-- Lines lead from scope to scope exactly if they are items that do. -/
theorem foldlM_eq_ready_iff [Overflow] {lines : List Line} {scope final : Scope} :
    lines.foldlM State.step (.ready scope) = .ok (.ready final) ↔
      ∃ items, Itemizes (lines.map (·.text.toList)) items ∧ scope.Runs items final := by
  constructor
  · intro read
    exact exists_runs_of_foldlM read
  · rintro ⟨items, itemized, runs⟩
    exact foldlM_of_runs itemized rfl runs

theorem map_toList_numberedLines (text : String) :
    (numberedLines text).map (·.text.toList) = Text.lines text.toList := by
  rw [numberedLines, List.map_map]
  refine .trans (List.map_congr_left fun numbered _ => ?_) (List.zipIdx_map_fst 1 _)
  exact String.toList_ofList

/-- A text ends with a class exactly if the class is open there. -/
theorem State.finish_eq_ok_iff {state : State} {listing : ClassListing} :
    state.finish = .ok listing ↔ state = .ready (.inClass listing) := by
  cases state with
  | ready scope => cases scope <;> simp [State.finish]
  | inSwitch other draft switch => simp [State.finish]

theorem parse_eq_ok_iff_foldlM [Overflow] {text : String} {listing : ClassListing} :
    parse text = .ok listing ↔
      (numberedLines text).foldlM State.step State.initial = .ok (.ready (.inClass listing)) := by
  simp [parse, bind_eq_ok_iff, State.finish_eq_ok_iff]

/-- A text is read as a class exactly if its lines are items that lead to the class. -/
theorem parse_eq_ok_iff [Overflow] {text : String} {listing : ClassListing} :
    parse text = .ok listing ↔
      ∃ items, Itemizes (Text.lines text.toList) items ∧
        Scope.outside.Runs items (.inClass listing) := by
  rw [parse_eq_ok_iff_foldlM, ← map_toList_numberedLines]
  exact foldlM_eq_ready_iff

end BranchSieve.Listing
