import BranchSieve.Proofs.Listing.Run

/-!
# Which texts are accepted

A text is accepted exactly if its items are a listing. What is open in front of an item is known
from the items before it: nothing at the start, a method behind an unmatched begin with the nodes of
the items since, and the class otherwise.
-/

namespace BranchSieve.Listing

open Text (splitFirst trim words)

/-! ## Turns of begin and end -/

theorem turns_succ (count : Nat) : turns (count + 1) = true :: false :: turns count := rfl

theorem turns_succ_eq_append (count : Nat) : turns (count + 1) = turns count ++ [true, false] := by
  simp [turns, List.replicate_succ']

theorem getLast?_turns_ne (count : Nat) : (turns count).getLast? ≠ some true := by
  cases count with
  | zero => simp [turns]
  | succ count => simp [turns_succ_eq_append]

/-- What follows whole turns consists of whole turns. -/
theorem exists_turns_of_append {count total : Nat} {rest : List Bool}
    (h : turns count ++ rest = turns total) : ∃ left, rest = turns left := by
  induction count generalizing total with
  | zero => exact ⟨total, h⟩
  | succ count ih =>
    cases total with
    | zero => simp [turns] at h
    | succ total =>
      rw [turns_succ, turns_succ] at h
      exact ih (by simpa using h)

/-! ## What an item spells -/

theorem SpellsCase.unique : Relator.RightUnique fun (line : List Char) (case : Int32 × String) =>
    SpellsCase line case.1 case.2 := by
  intro line case case' h h'
  rcases case with ⟨key, label⟩
  rcases case' with ⟨key', label'⟩
  have same := (readCase_eq_ok_iff.2 (.inl ⟨key, label, h, rfl⟩)).symm.trans
    (readCase_eq_ok_iff.2 (.inl ⟨key', label', h', rfl⟩))
  simpa using same

theorem SpellsTarget.unique {line : List Char} {label label' : String}
    (h : SpellsTarget line "default".toList label)
    (h' : SpellsTarget line "default".toList label') : label = label' := by
  have same := (readCase_eq_ok_iff.2 (.inr ⟨label, h, rfl⟩)).symm.trans
    (readCase_eq_ok_iff.2 (.inr ⟨label', h', rfl⟩))
  simpa using same

theorem SpellsSwitch.unique [Overflow] {kind : SwitchKind} {cases : List (Int32 × String)}
    {label : String} {node node' : Insn String} (h : SpellsSwitch kind cases label node)
    (h' : SpellsSwitch kind cases label node') : node = node' := by
  cases h <;> cases h' <;> rfl

/-- An item spells at most one node. -/
theorem Item.Spells.unique [Overflow] {item : Item} {node node' : Insn String}
    (h : item.Spells node) (h' : item.Spells node') : node = node' := by
  cases h with
  | instruction spells =>
    cases h' with
    | instruction spells' =>
      have same := (readInstruction_eq_ok_node_iff.2 spells).symm.trans
        (readInstruction_eq_ok_node_iff.2 spells')
      simpa using same
  | switch bare spelled closed made =>
    cases h' with
    | switch bare' spelled' closed' made' =>
      obtain rfl := List.right_unique_forall₂' SpellsCase.unique spelled spelled'
      obtain rfl := closed.unique closed'
      exact made.unique made'

theorem Item.rightUnique_spells [Overflow] : Relator.RightUnique Item.Spells :=
    fun _ _ _ h h' => h.unique h'

theorem Item.Spells.isInstruction [Overflow] {item : Item} {node : Insn String}
    (h : item.Spells node) : item.isInstruction = true := by
  cases h <;> rfl

theorem Item.Spells.opens? [Overflow] {item : Item} {node : Insn String} (h : item.Spells node) :
    item.opens? = none := by
  cases h <;> rfl

/-- A list each of whose elements is related to something is related to a list. -/
theorem exists_forall₂ {α β : Type} {R : α → β → Prop} {list : List α}
    (related : ∀ a ∈ list, ∃ b, R a b) : ∃ other, List.Forall₂ R list other := by
  induction list with
  | nil => exact ⟨[], .nil⟩
  | cons a list ih =>
    obtain ⟨⟨b, first⟩, others⟩ := List.forall_mem_cons.1 related
    obtain ⟨other, rest⟩ := ih others
    exact ⟨b :: other, .cons first rest⟩

theorem mem_placed_iff {nodes : List (Insn String)} {label : String} :
    label ∈ nodes.filterMap placed? ↔ .label label ∈ nodes := by
  rw [List.mem_filterMap]
  constructor
  · intro h
    rcases h with ⟨node, mem, places⟩
    cases node <;> simp [placed?] at places
    rwa [← places]
  · intro mem
    exact ⟨_, mem, rfl⟩

/-- A node that does not place a label again keeps the places apart. -/
theorem nodup_placed_push {draft : Draft} {node : Insn String}
    (once : (draft.nodes.toList.filterMap placed?).Nodup)
    (fresh : ∀ label, node = .label label → .label label ∉ draft.nodes.toList) :
    ((draft.push node).nodes.toList.filterMap placed?).Nodup := by
  rw [Draft.push, Array.toList_push, List.filterMap_append]
  cases places : placed? node with
  | none => simpa [places] using once
  | some label =>
    obtain rfl : node = .label label := by
      cases node <;> simp [placed?] at places
      rw [places]
    rw [List.filterMap_cons_some places, List.filterMap_nil, List.nodup_append]
    refine ⟨once, by simp, ?_⟩
    intro other mem _ h same
    rcases h with _ | ⟨_, ⟨⟩⟩
    subst same
    exact fresh _ rfl (mem_placed_iff.1 mem)

/-! ## The scope behind some items -/

/-- What the items before a scope say about it. -/
def Reached [Overflow] (items : List Item) : Scope → Prop
  | .outside => items = []
  | .inClass _ => ∃ count, items.filterMap Item.opens? = turns count
  | .inMethod _ draft => ∃ before operands inner count,
      items = before ++ .begin operands :: inner ∧
      before.filterMap Item.opens? = turns count ∧ inner.filterMap Item.opens? = [] ∧
      List.Forall₂ Item.Spells (inner.filter Item.isInstruction) draft.nodes.toList ∧
      (draft.nodes.toList.filterMap placed?).Nodup

theorem Reached.isOpen [Overflow] {items : List Item} {listing : ClassListing} {draft : Draft}
    (h : Reached items (.inMethod listing draft)) : IsOpen items := by
  obtain ⟨before, operands, inner, count, rfl, opened, none_inside, -, -⟩ := h
  simp [IsOpen, Item.opens?, none_inside]

theorem Reached.not_isOpen [Overflow] {items : List Item} {listing : ClassListing}
    (h : Reached items (.inClass listing)) : ¬ IsOpen items := by
  obtain ⟨count, opened⟩ := h
  rw [IsOpen, opened]
  exact getLast?_turns_ne count

/-- One item keeps what the items before say about the scope. -/
theorem Reached.takes [Overflow] {items : List Item} {item : Item} {scope next : Scope}
    (h : Reached items scope) (takes : scope.Takes item next) : Reached (items ++ [item]) next := by
  cases takes with
  | declare one =>
    obtain rfl : items = [] := h
    exact ⟨0, rfl⟩
  | annotateClass one =>
    obtain ⟨count, opened⟩ := h
    exact ⟨count, by simp [opened, Item.opens?]⟩
  | @annotateMethod _ _ operands' _ one =>
    obtain ⟨before, operands, inner, count, rfl, opened, none_inside, spelled, once⟩ := h
    exact ⟨before, operands, inner ++ [.annotate operands'], count, by simp, opened,
      by simp [none_inside, Item.opens?], by simpa [Item.isInstruction] using spelled, once⟩
  | begin named described =>
    obtain ⟨count, opened⟩ := h
    exact ⟨items, _, [], count, rfl, opened, rfl, .nil, .nil⟩
  | finish finished =>
    obtain ⟨before, operands, inner, count, rfl, opened, none_inside, -, -⟩ := h
    exact ⟨count + 1, by simp [opened, none_inside, Item.opens?, turns_succ_eq_append]⟩
  | @add _ draft _ node spells fresh =>
    obtain ⟨before, operands, inner, count, rfl, opened, none_inside, spelled, once⟩ := h
    refine ⟨before, operands, inner ++ [item], count, by simp, opened,
      by simp [none_inside, spells.opens?], ?_, ?_⟩
    · simpa [spells.isInstruction, Draft.push] using
        List.rel_append spelled (.cons spells .nil : List.Forall₂ Item.Spells [item] [node])
    · exact nodup_placed_push once fresh

/-- A run keeps it. -/
theorem reached_of_runs [Overflow] {items : List Item} {scope : Scope}
    (runs : Scope.outside.Runs items scope) : Reached items scope := by
  induction items using List.reverseRecOn generalizing scope with
  | nil =>
    obtain rfl := Scope.runs_nil_iff.1 runs
    rfl
  | append_singleton items item ih =>
    obtain ⟨next, front, last⟩ := Scope.runs_append_iff.1 runs
    obtain ⟨_, takes, last⟩ := Scope.runs_cons_iff.1 last
    obtain rfl := Scope.runs_nil_iff.1 last
    exact (ih front).takes takes

/-- The items inside of a method leave it open and add the nodes that they spell. -/
theorem exists_inMethod_of_runs [Overflow] {items : List Item} {listing : ClassListing}
    {draft : Draft} {next : Scope} (runs : (Scope.inMethod listing draft).Runs items next)
    (inside : ∀ operands, .finish operands ∉ items) :
    ∃ listing' draft' nodes, next = .inMethod listing' draft' ∧
      List.Forall₂ Item.Spells (items.filter Item.isInstruction) nodes ∧
      draft'.nodes.toList = draft.nodes.toList ++ nodes := by
  induction items generalizing listing draft with
  | nil =>
    obtain rfl := Scope.runs_nil_iff.1 runs
    exact ⟨listing, draft, [], rfl, .nil, by simp⟩
  | cons item items ih =>
    obtain ⟨between, takes, rest⟩ := Scope.runs_cons_iff.1 runs
    have inside' : ∀ operands, .finish operands ∉ items := fun operands mem =>
      inside operands (List.mem_cons_of_mem _ mem)
    cases takes with
    | annotateMethod one =>
      obtain ⟨listing', draft', nodes, rfl, spelled, extended⟩ := ih rest inside'
      exact ⟨listing', draft', nodes, rfl, by simpa [Item.isInstruction] using spelled, extended⟩
    | @finish _ _ operands _ _ => exact absurd List.mem_cons_self (inside operands)
    | @add _ _ _ node spells fresh =>
      obtain ⟨listing', draft', nodes, rfl, spelled, extended⟩ := ih rest inside'
      refine ⟨listing', draft', node :: nodes, rfl, ?_, by simp [extended, Draft.push]⟩
      rw [List.filter_cons_of_pos spells.isInstruction]
      exact .cons spells spelled

/-! ## The two directions -/

section Direction

variable {items before after : List Item} {item : Item} {scope : Scope}

/-- In a run each item is taken by a scope that the items before it say. -/
theorem exists_takes_of_runs [Overflow] (runs : Scope.outside.Runs items scope)
    (split : items = before ++ item :: after) :
    ∃ here next, Scope.outside.Runs before here ∧ Reached before here ∧ here.Takes item next ∧
      next.Runs after scope := by
  subst split
  obtain ⟨here, front, back⟩ := Scope.runs_append_iff.1 runs
  obtain ⟨next, takes, rest⟩ := Scope.runs_cons_iff.1 back
  exact ⟨here, next, front, reached_of_runs front, takes, rest⟩

/-- Items that lead to a class are a listing. -/
theorem isListing_of_runs [Overflow] {listing : ClassListing}
    (runs : Scope.outside.Runs items (.inClass listing)) : IsListing items where
  declared := by
    cases items with
    | nil => cases runs
    | cons item others =>
      obtain ⟨next, takes, rest⟩ := Scope.runs_cons_iff.1 runs
      cases takes with
      | declare one =>
        refine ⟨_, _, others, rfl, one, fun operands mem => ?_⟩
        obtain ⟨before, after, rfl⟩ := List.append_of_mem mem
        obtain ⟨here, _, -, reached, takes, -⟩ := exists_takes_of_runs runs
          (show _ = (_ :: before) ++ .declare operands :: after from rfl)
        cases takes with
        | declare => simp [Reached] at reached
        | add spells => cases spells
  alternate := reached_of_runs runs
  methods := by
    intro operands mem
    obtain ⟨before, after, split⟩ := List.append_of_mem mem
    obtain ⟨here, _, -, -, takes, -⟩ := exists_takes_of_runs runs split
    cases takes with
    | begin named described => exact ⟨named, described⟩
    | add spells => cases spells
  annotations := by
    intro operands mem
    obtain ⟨before, after, split⟩ := List.append_of_mem mem
    obtain ⟨here, _, -, -, takes, -⟩ := exists_takes_of_runs runs split
    cases takes with
    | annotateClass one => exact ⟨_, one⟩
    | annotateMethod one => exact ⟨_, one⟩
    | add spells => cases spells
  instructions := by
    intro before item after split isInstruction
    obtain ⟨here, _, -, reached, takes, -⟩ := exists_takes_of_runs runs split
    cases takes with
    | add spells => exact ⟨reached.isOpen, _, spells⟩
    | _ => simp [Item.isInstruction] at isInstruction
  labels := by
    intro before operands inner operands' after split inside nodes spelled
    obtain ⟨last, _, front, reached, takes, -⟩ := exists_takes_of_runs runs
      (show items = (before ++ .begin operands :: inner) ++ .finish operands' :: after
        by simp [split])
    obtain ⟨here, next, -, -, begins, body⟩ := exists_takes_of_runs front rfl
    cases begins with
    | add spells => cases spells
    | begin named described =>
      obtain ⟨listing, draft, nodes', rfl, spelled', extended⟩ :=
        exists_inMethod_of_runs body inside
      obtain rfl := List.right_unique_forall₂' Item.rightUnique_spells spelled spelled'
      obtain ⟨-, -, -, -, -, -, -, -, once⟩ := reached
      rw [List.nil_append] at extended
      cases takes with
      | add spells => cases spells
      | finish finished =>
        have placed := (finish_eq_ok_iff.1 finished).1
        rw [extended] at once placed
        exact ⟨once, placed⟩

theorem turns_of_reached [Overflow] {listing : ClassListing} {draft : Draft}
    (h : Reached before (.inMethod listing draft)) :
    ∃ count, before.filterMap Item.opens? = turns count ++ [true] := by
  obtain ⟨front, operands, inner, count, rfl, opened, none_inside, -, -⟩ := h
  exact ⟨count, by simp [opened, none_inside, Item.opens?]⟩

/-- In a listing no method begins inside of another one. -/
theorem not_reached_begin [Overflow] {operands : List Char} {listing : ClassListing} {draft : Draft}
    (h : IsListing items) (split : items = before ++ .begin operands :: after) :
    ¬ Reached before (.inMethod listing draft) := by
  intro reached
  obtain ⟨total, turn⟩ := h.alternate
  obtain ⟨count, opened⟩ := turns_of_reached reached
  have whole : turns count ++ true :: true :: after.filterMap Item.opens? = turns total := by
    simpa [split, opened, Item.opens?] using turn
  obtain ⟨left, rest⟩ := exists_turns_of_append whole
  cases left with
  | zero => simp [turns] at rest
  | succ left => simp [turns_succ] at rest

/-- In a listing no method ends outside of a method. -/
theorem not_reached_finish [Overflow] {operands : List Char} {listing : ClassListing}
    (h : IsListing items) (split : items = before ++ .finish operands :: after) :
    ¬ Reached before (.inClass listing) := by
  intro given
  rcases given with ⟨count, opened⟩
  obtain ⟨total, turn⟩ := h.alternate
  have whole : turns count ++ false :: after.filterMap Item.opens? = turns total := by
    simpa [split, opened, Item.opens?] using turn
  obtain ⟨left, rest⟩ := exists_turns_of_append whole
  cases left with
  | zero => simp [turns] at rest
  | succ left => simp [turns_succ] at rest

/-- In a listing a method that is open ends. -/
theorem exists_finish_of_reached [Overflow] {listing : ClassListing} {draft : Draft}
    (h : IsListing items) (split : items = before ++ after)
    (reached : Reached before (.inMethod listing draft)) :
    ∃ rest operands back, after = rest ++ .finish operands :: back ∧
      rest.filterMap Item.opens? = [] := by
  obtain ⟨total, turn⟩ := h.alternate
  obtain ⟨count, opened⟩ := turns_of_reached reached
  have whole : turns count ++ true :: after.filterMap Item.opens? = turns total := by
    simpa [split, opened] using turn
  obtain ⟨left, rest⟩ := exists_turns_of_append whole
  cases left with
  | zero => simp [turns] at rest
  | succ left =>
    rw [turns_succ, List.cons.injEq] at rest
    obtain ⟨inner, item, back, rfl, none_before, closes, -⟩ := List.filterMap_eq_cons_iff.1 rest.2
    cases item with
    | finish operands =>
      exact ⟨inner, operands, back, rfl, List.filterMap_eq_nil_iff.2 none_before⟩
    | _ => simp [Item.opens?] at closes

theorem not_mem_finish {inner : List Item} (h : inner.filterMap Item.opens? = [])
    (operands : List Char) : .finish operands ∉ inner := fun mem => by
  have silent := List.filterMap_eq_nil_iff.1 h _ mem
  simp [Item.opens?] at silent

/-- In a listing a label is not placed in a method that already places it. -/
theorem fresh_of_isListing [Overflow] {listing : ClassListing} {draft : Draft} {node : Insn String}
    (h : IsListing items) (split : items = before ++ item :: after)
    (reached : Reached before (.inMethod listing draft)) (spells : item.Spells node)
    {label : String} (same : node = .label label) : .label label ∉ draft.nodes.toList := by
  intro twice
  obtain ⟨rest, operands', back, closed, none_rest⟩ := exists_finish_of_reached h split reached
  obtain ⟨front, operands, inner, -, rfl, -, none_inside, spelled, -⟩ := reached
  cases rest with
  | nil =>
    obtain ⟨rfl, -⟩ := List.cons.inj closed
    cases spells
  | cons _ rest =>
    obtain ⟨rfl, rfl⟩ := List.cons.inj closed
    -- The nodes of the whole method are those of the draft, the label, and what the rest spells.
    obtain ⟨nodes, spelled'⟩ : ∃ nodes,
        List.Forall₂ Item.Spells (rest.filter Item.isInstruction) nodes := by
      apply exists_forall₂
      intro other mem
      obtain ⟨mem, isInstruction⟩ := List.mem_filter.1 mem
      obtain ⟨one, two, rfl⟩ := List.append_of_mem mem
      refine (h.instructions (front ++ .begin operands :: inner ++ item :: one) other
        (two ++ .finish operands' :: back) ?_ isInstruction).2
      simp [split]
    have all : List.Forall₂ Item.Spells ((inner ++ item :: rest).filter Item.isInstruction)
        (draft.nodes.toList ++ node :: nodes) := by
      rw [List.filter_append, List.filter_cons_of_pos spells.isInstruction]
      exact List.rel_append spelled (.cons spells spelled')
    have inside : ∀ operands, .finish operands ∉ inner ++ item :: rest :=
      not_mem_finish (by simpa [none_inside] using none_rest)
    have placed := h.labels front operands (inner ++ item :: rest) operands' back (by simp [split])
      inside _ all
    have once := placed.1
    rw [List.filterMap_append, List.nodup_append] at once
    refine once.2.2 label (mem_placed_iff.2 twice) label (mem_placed_iff.2 ?_) rfl
    rw [same]
    exact List.mem_cons_self

/-- In a listing an item finds a scope that takes it. -/
theorem exists_takes_of_isListing [Overflow] {here : Scope} (h : IsListing items)
    (split : items = before ++ item :: after) (runs : Scope.outside.Runs before here) :
    ∃ next, here.Takes item next := by
  have reached := reached_of_runs runs
  -- Only the declaration stands in front of everything.
  have not_outside : (∀ operands, item ≠ .declare operands) → here ≠ .outside := by
    intro other equal
    subst equal
    obtain rfl : before = [] := reached
    obtain ⟨operands, _, _, first, -⟩ := h.declared
    exact other operands (List.cons.inj (split.symm.trans first)).1
  have instruction : item.isInstruction = true → ∃ next, here.Takes item next := by
    intro isInstruction
    obtain ⟨opened, node, spells⟩ := h.instructions before item after split isInstruction
    cases here with
    | outside =>
      exact absurd rfl (not_outside (by rintro _ rfl; simp [Item.isInstruction] at isInstruction))
    | inClass listing => exact absurd opened reached.not_isOpen
    | inMethod listing draft =>
      exact ⟨_, .add spells fun label same => fresh_of_isListing h split reached spells same⟩
  cases item with
  | declare operands =>
    obtain ⟨operands', name, others, first, one, once⟩ := h.declared
    cases before with
    | nil =>
      obtain rfl := Scope.runs_nil_iff.1 runs
      obtain ⟨rfl, -⟩ := Item.declare.inj (List.cons.inj (split.symm.trans first)).1
      exact ⟨_, .declare one⟩
    | cons item before =>
      refine absurd ?_ (once operands)
      rw [← (List.cons.inj (split.symm.trans first)).2]
      simp
  | annotate operands =>
    obtain ⟨type, one⟩ := h.annotations operands (by simp [split])
    cases here with
    | outside => exact absurd rfl (not_outside (by simp))
    | inClass listing => exact ⟨_, .annotateClass one⟩
    | inMethod listing draft => exact ⟨_, .annotateMethod one⟩
  | begin operands =>
    obtain ⟨named, described⟩ := h.methods operands (by simp [split])
    cases here with
    | outside => exact absurd rfl (not_outside (by simp))
    | inClass listing => exact ⟨_, .begin named described⟩
    | inMethod listing draft => exact absurd reached (not_reached_begin h split)
  | finish operands =>
    cases here with
    | outside => exact absurd rfl (not_outside (by simp))
    | inClass listing => exact absurd reached (not_reached_finish h split)
    | inMethod listing draft =>
      obtain ⟨front, operands', inner, -, rfl, -, none_inside, spelled, -⟩ := reached
      have placed := h.labels front operands' inner operands after (by simp [split])
        (not_mem_finish none_inside) _ spelled
      exact ⟨_, .finish (finish_eq_ok_iff.2 ⟨placed.2, rfl⟩)⟩
  | instruction keyword operands => exact instruction rfl
  | switch kind operands cases otherwise => exact instruction rfl

/-- A listing is run to its class. -/
theorem exists_runs_of_isListing [Overflow] (h : IsListing items) :
    ∃ listing, Scope.outside.Runs items (.inClass listing) := by
  have prefixes :
      ∀ before after, items = before ++ after → ∃ here, Scope.outside.Runs before here := by
    intro before
    induction before using List.reverseRecOn with
    | nil => exact fun after split => ⟨.outside, .nil⟩
    | append_singleton before item ih =>
      intro after split
      have split' : items = before ++ item :: after := by simp [split]
      obtain ⟨here, runs⟩ := ih (item :: after) split'
      obtain ⟨next, takes⟩ := exists_takes_of_isListing h split' runs
      exact ⟨next, Scope.runs_append_iff.2 ⟨here, runs, .cons takes .nil⟩⟩
  obtain ⟨here, runs⟩ := prefixes items [] (by simp)
  have reached := reached_of_runs runs
  cases here with
  | outside =>
    obtain ⟨operands, _, _, first, -⟩ := h.declared
    obtain rfl : items = [] := reached
    simp at first
  | inClass listing => exact ⟨listing, runs⟩
  | inMethod listing draft =>
    obtain ⟨rest, operands, back, closed, -⟩ :=
      exists_finish_of_reached h (List.append_nil items).symm reached
    simp at closed

end Direction

/-- A text is accepted exactly if its lines, read as items, are a listing. -/
theorem exists_parse_eq_ok_iff [Overflow] (text : String) :
    (∃ listing, parse text = .ok listing) ↔
      ∃ items, Itemizes (Text.lines text.toList) items ∧ IsListing items := by
  constructor
  · intro h
    rcases h with ⟨listing, parsed⟩
    obtain ⟨items, itemized, runs⟩ := parse_eq_ok_iff.1 parsed
    exact ⟨items, itemized, isListing_of_runs runs⟩
  · intro h
    rcases h with ⟨items, itemized, isListing⟩
    obtain ⟨listing, runs⟩ := exists_runs_of_isListing isListing
    exact ⟨listing, parse_eq_ok_iff.2 ⟨items, itemized, runs⟩⟩

end BranchSieve.Listing
