import BranchSieve.Proofs.Listing.LabelTable
import BranchSieve.Proofs.Listing.Refusal

/-!
# Which label is reported as undefined

A method that ends must place the labels that it mentions. If it does not, the text is refused
there, whatever comes later, for the label that is mentioned first of those that are not placed.
Before that line the text has to be a listing with one more method, so nothing else is wrong with
it.
-/

namespace BranchSieve.Listing

open Text (splitFirst trim words)

/-- A label is mentioned and not placed, and the labels that are mentioned before it are placed. -/
def IsFirstUnplaced (nodes : List (Insn String)) (label : String) : Prop :=
  .label label ∉ nodes ∧ ∃ earlier later,
    nodes.flatMap Insn.labels = earlier ++ label :: later ∧ ∀ other ∈ earlier, .label other ∈ nodes

/-- The items inside of a method spell its nodes. -/
structure SpellsNodes [Overflow] (inner : List Item) (nodes : List (Insn String)) : Prop where
  /-- Only annotations stand between the instructions. -/
  others : ∀ item ∈ inner, item.isInstruction = false →
    ∃ operands type, item = .annotate operands ∧ words operands = [type]
  spelled : List.Forall₂ Item.Spells (inner.filter Item.isInstruction) nodes
  /-- No label is placed twice. -/
  once : (nodes.filterMap placed?).Nodup

/-- The items are a listing and the start of a method with some nodes. -/
def OpensMethod [Overflow] (items : List Item) (method : String)
    (nodes : List (Insn String)) : Prop :=
  ∃ before operands inner, items = before ++ .begin operands :: inner ∧ IsListing before ∧
    (splitFirst operands).1 ≠ [] ∧ (splitFirst operands).2 ≠ [] ∧
    method = String.ofList (splitFirst operands).1 ∧ SpellsNodes inner nodes

variable {items inner : List Item} {item : Item} {nodes : List (Insn String)} {node : Insn String}
  {listing : ClassListing} {draft : Draft} {scope : Scope} {state : State} {line : Line}
  {method label : String}

/-! ## The first label that is not placed -/

theorem undefinedLabel?_eq_some_iff :
    draft.undefinedLabel? = some label ↔ IsFirstUnplaced draft.nodes.toList label := by
  have places : ∀ other, draft.places other = true ↔ .label other ∈ draft.nodes.toList := by
    simp [Draft.places]
  rw [Draft.undefinedLabel?, Draft.labelNames, find?_eraseDups, List.find?_eq_some_iff_append,
    Bool.not_eq_true', ← Bool.not_eq_true, places]
  simp only [Bool.not_not, places, IsFirstUnplaced]

/-! ## The inside of a method -/

/-- One more annotation spells nothing. -/
theorem SpellsNodes.annotate [Overflow] (spells : SpellsNodes inner nodes)
    {operands type : List Char} (one : words operands = [type]) :
    SpellsNodes (inner ++ [.annotate operands]) nodes where
  others := by
    intro item mem other
    rcases List.mem_append.1 mem with mem | mem
    · exact spells.others item mem other
    · exact ⟨operands, type, List.mem_singleton.1 mem, one⟩
  spelled := by simpa [Item.isInstruction] using spells.spelled
  once := spells.once

/-- One more instruction spells one more node. -/
theorem SpellsNodes.add [Overflow] (spells : SpellsNodes inner draft.nodes.toList)
    (last : item.Spells node)
    (fresh : ∀ label, node = .label label → .label label ∉ draft.nodes.toList) :
    SpellsNodes (inner ++ [item]) (draft.push node).nodes.toList where
  others := by
    intro item' mem other
    rcases List.mem_append.1 mem with mem | mem
    · exact spells.others item' mem other
    · rw [List.mem_singleton.1 mem, last.isInstruction] at other
      cases other
  spelled := by
    simpa [last.isInstruction, Draft.push] using
      List.rel_append spells.spelled (.cons last .nil : List.Forall₂ Item.Spells [item] [node])
  once := nodup_placed_push spells.once fresh

/-- Where a method is open, it has begun behind a listing. -/
theorem opensMethod_of_runs [Overflow] (runs : Scope.outside.Runs items (.inMethod listing draft)) :
    OpensMethod items draft.name draft.nodes.toList := by
  induction items using List.reverseRecOn generalizing listing draft with
  | nil => cases Scope.runs_nil_iff.1 runs
  | append_singleton items item ih =>
    obtain ⟨next, front, last⟩ := Scope.runs_append_iff.1 runs
    obtain ⟨_, takes, last⟩ := Scope.runs_cons_iff.1 last
    obtain rfl := Scope.runs_nil_iff.1 last
    cases takes with
    | @annotateMethod _ _ operands' _ one =>
      obtain ⟨before, operands, inner, rfl, isListing, named, described, name, spells⟩ := ih front
      exact ⟨before, operands, inner ++ [.annotate operands'], by simp, isListing, named, described,
        name, spells.annotate one⟩
    | begin named described =>
      exact ⟨items, _, [], rfl, isListing_of_runs front, named, described, rfl, by simp, .nil, .nil⟩
    | add spells' fresh =>
      obtain ⟨before, operands, inner, rfl, isListing, named, described, name, spells⟩ := ih front
      exact ⟨before, operands, inner ++ [item], by simp, isListing, named, described, name,
        spells.add spells' fresh⟩

/-- The items inside of a method are taken one by one. -/
theorem exists_runs_of_spelled [Overflow] (listing : ClassListing) (draft : Draft)
    (others : ∀ item ∈ inner, item.isInstruction = false →
      ∃ operands type, item = .annotate operands ∧ words operands = [type])
    (spelled : List.Forall₂ Item.Spells (inner.filter Item.isInstruction) nodes)
    (once : ((draft.nodes.toList ++ nodes).filterMap placed?).Nodup) :
    ∃ listing' draft', (Scope.inMethod listing draft).Runs inner (.inMethod listing' draft') ∧
      draft'.name = draft.name ∧ draft'.nodes.toList = draft.nodes.toList ++ nodes := by
  induction inner generalizing listing draft nodes with
  | nil =>
    cases spelled
    exact ⟨listing, draft, .nil, rfl, by simp⟩
  | cons item inner ih =>
    have others' := (List.forall_mem_cons.1 others).2
    by_cases isInstruction : item.isInstruction = true
    · rw [List.filter_cons_of_pos isInstruction] at spelled
      cases spelled with
      | @cons _ node _ nodes spells spelled =>
        have fresh : ∀ label, node = .label label → .label label ∉ draft.nodes.toList := by
          rintro label rfl mem
          rw [List.filterMap_append, List.nodup_append] at once
          refine once.2.2 label (mem_placed_iff.2 mem) label (mem_placed_iff.2 ?_) rfl
          exact List.mem_cons_self
        have extended :
            (draft.push node).nodes.toList ++ nodes = draft.nodes.toList ++ node :: nodes := by
          simp [Draft.push]
        obtain ⟨listing', draft', runs, name, same⟩ :=
          ih listing (draft.push node) others' spelled (by rwa [extended])
        exact ⟨listing', draft', .cons (.add spells fresh) runs, name, same.trans extended⟩
    · have silent : item.isInstruction = false := Bool.eq_false_iff.2 isInstruction
      obtain ⟨operands, type, rfl, one⟩ := others item List.mem_cons_self silent
      obtain ⟨listing', draft', runs, name, same⟩ :=
        ih { listing with annotations := listing.annotations ++ [String.ofList type] } draft others'
          (by simpa [Item.isInstruction] using spelled) once
      exact ⟨listing', draft', .cons (.annotateMethod one) runs, name, same⟩

/-- A method is open behind the items that open one, and behind no others. -/
theorem opensMethod_iff [Overflow] :
    OpensMethod items method nodes ↔ ∃ listing draft,
      Scope.outside.Runs items (.inMethod listing draft) ∧ draft.name = method ∧
        draft.nodes.toList = nodes := by
  constructor
  · rintro ⟨before, operands, inner, rfl, isListing, named, described, rfl, spells⟩
    obtain ⟨listing, front⟩ := exists_runs_of_isListing isListing
    obtain ⟨listing', draft, inside, name, same⟩ := exists_runs_of_spelled listing
      ⟨String.ofList (splitFirst operands).1, String.ofList (splitFirst operands).2, #[]⟩
      spells.others spells.spelled (by simpa using spells.once)
    exact ⟨listing', draft,
      Scope.runs_append_iff.2 ⟨_, front, .cons (.begin named described) inside⟩,
      name, by simpa using same⟩
  · rintro ⟨listing, draft, runs, rfl, rfl⟩
    exact opensMethod_of_runs runs

/-! ## The line that ends a method -/

/-- A line is refused for an undefined label where a method ends, and nowhere else. -/
theorem step_eq_undefinedLabel_iff [Overflow] :
    state.step line = .error (.undefinedLabel method label) ↔
      EndsMethod line.text.toList ∧ ∃ listing draft, state = .ready (.inMethod listing draft) ∧
        draft.name = method ∧ draft.undefinedLabel? = some label := by
  constructor
  · intro refused
    cases State.refuses_of_step refused with
    | ready refuses =>
      cases refuses with
      | finish ends first => exact ⟨ends, _, _, rfl, rfl, first⟩
  · rintro ⟨ends, listing, draft, rfl, rfl, first⟩
    change Scope.step _ line = _
    rw [Scope.step, read_eq_endMethod_iff.2 ends, Scope.endMethod, Draft.finish, first]
    rfl

/-! ## The report -/

/-- A text is refused for an undefined label where the lines lead into a method that ends without
    it. -/
theorem parse_eq_undefinedLabel_iff_foldlM [Overflow] {text : String} :
    parse text = .error (.undefinedLabel method label) ↔
      ∃ front last back listing draft, numberedLines text = front ++ last :: back ∧
        front.foldlM State.step State.initial = .ok (.ready (.inMethod listing draft)) ∧
        EndsMethod last.text.toList ∧ draft.name = method ∧
        draft.undefinedLabel? = some label := by
  have finished : ∀ state : State, state.finish ≠ .error (.undefinedLabel method label) := by
    rintro (scope | ⟨listing, draft, switch⟩)
    · cases scope <;> exact nofun
    · exact nofun
  rw [parse, bind_eq_error_iff]
  constructor
  · rintro (refused | ⟨state, -, refused⟩)
    · obtain ⟨front, last, back, state, split, reached, refused⟩ := foldlM_eq_error_iff.1 refused
      obtain ⟨ends, listing, draft, rfl, name, first⟩ := step_eq_undefinedLabel_iff.1 refused
      exact ⟨front, last, back, listing, draft, split, reached, ends, name, first⟩
    · exact absurd refused (finished state)
  · rintro ⟨front, last, back, listing, draft, split, reached, ends, name, first⟩
    exact .inl (foldlM_eq_error_iff.2 ⟨front, last, back, _, split, reached,
      step_eq_undefinedLabel_iff.2 ⟨ends, listing, draft, rfl, name, first⟩⟩)

/-- A text is refused for an undefined label exactly if a listing and the start of a method come
    first, then the end of the method, and the label is the first of those that the method mentions
    and does not place. What comes later makes no difference, and neither does the order in which a
    table that numbers the labels lists its entries. -/
theorem parse_eq_undefinedLabel_iff [Overflow] (text : String) (order : LabelTable → LabelTable)
    (shuffles : ∀ table, (order table).Perm table) :
    (∀ method label, parse text = .error (.undefinedLabel method label) ↔
      ∃ front last back items nodes, Text.lines text.toList = front ++ last :: back ∧
        Itemizes front items ∧ OpensMethod items method nodes ∧ EndsMethod last ∧
        IsFirstUnplaced nodes label) ∧
    ∀ (name descriptor : String) (nodes : List (Insn String)),
      (nodes.foldl NumberedDraft.push (.new name descriptor)).finish order =
        (nodes.foldl Draft.push ⟨name, descriptor, #[]⟩).finish := by
  refine ⟨fun method label => ?_, fun name descriptor nodes =>
    ((NumberedDraft.follows_new name descriptor).foldl_push nodes).finish shuffles⟩
  rw [parse_eq_undefinedLabel_iff_foldlM, ← map_toList_numberedLines]
  constructor
  · rintro ⟨front, last, back, listing, draft, split, reached, ends, name, first⟩
    obtain ⟨items, itemized, runs⟩ := foldlM_eq_ready_iff.1 reached
    refine ⟨_, _, _, items, _, by rw [split, List.map_append, List.map_cons], itemized,
      opensMethod_iff.2 ⟨listing, draft, runs, name, rfl⟩, ends,
      undefinedLabel?_eq_some_iff.1 first⟩
  · rintro ⟨_, _, _, items, nodes, split, itemized, opens, ends, first⟩
    obtain ⟨listing, draft, runs, name, rfl⟩ := opensMethod_iff.1 opens
    obtain ⟨front, rest, numbered, rfl, behind⟩ := List.map_eq_append_iff.1 split
    obtain ⟨last, back, rfl, rfl, -⟩ := List.map_eq_cons_iff.1 behind
    exact ⟨front, last, back, listing, draft, numbered,
      foldlM_eq_ready_iff.2 ⟨items, itemized, runs⟩, ends, name,
      undefinedLabel?_eq_some_iff.2 first⟩

/-- The label of a default is mentioned behind those of the cases, and in front of what comes after
    the switch; a table that lists the last entry first reports the same label. -/
theorem parse_eq_undefinedLabel_switch :
    let text :=
      "class C\nmethod g ()V\nL3\nend\nmethod f (I)V\nLOOKUPSWITCH\n1: L7\ndefault: L3\n" ++
      "GOTO L1\nL7\nend\nASTOR 2\nend\n"
    let nodes : List (Insn String) := [.lookupSwitch [1] ["L7"] "L3", .jump .goto "L1", .label "L7"]
    (∃ front last back items nodes, Text.lines text.toList = front ++ last :: back ∧
        Itemizes front items ∧ OpensMethod items "f" nodes ∧ EndsMethod last ∧
        IsFirstUnplaced nodes "L3") ∧
      (nodes.foldl NumberedDraft.push (.new "f" "(I)V")).finish List.reverse =
        .error (.undefinedLabel "f" "L3") := by
  intro text nodes
  obtain ⟨reported, alike⟩ :=
    parse_eq_undefinedLabel_iff text List.reverse fun table => table.reverse_perm
  refine ⟨(reported "f" "L3").1 (by decide +kernel), ?_⟩
  rw [alike]
  decide +kernel

end BranchSieve.Listing
