import BranchSieve.Proofs.Listing.Layout
import Mathlib.Algebra.Ring.Nat

/-!
# The lines of a listing and what they become

Each line of an accepted text that is neither blank nor a comment is used once: for the class, for
an annotation, for the begin or the end of a method, or for a node, which takes one line or, if it
is a switch, its first line with those of its cases and of its default. The nodes of a method stand
in the order of their lines. Both are kept by every item of a run.
-/

namespace BranchSieve

/-- The number of lines that show a node. -/
def Insn.lineCount {ℓ : Type} : Insn ℓ → Nat
  | .tableSwitch _ _ labels _ | .lookupSwitch _ labels _ => labels.length + 2
  | _ => 1

/-- The number of lines that show a method. -/
def Method.lineCount (method : Method) : Nat :=
  2 + (method.body.nodes.toList.map Insn.lineCount).sum

/-- The number of lines that show a class. -/
def ClassListing.lineCount (listing : ClassListing) : Nat :=
  1 + listing.annotations.length + (listing.methods.map Method.lineCount).sum

@[simp]
theorem Insn.lineCount_mapLabels {ℓ ℓ' : Type} (f : ℓ → ℓ') (node : Insn ℓ) :
    (node.mapLabels f).lineCount = node.lineCount := by
  cases node <;> simp [mapLabels, lineCount]

theorem Insn.lineCount_pos {ℓ : Type} (node : Insn ℓ) : 0 < node.lineCount := by
  cases node <;> simp [lineCount]

/-- The nodes of a method are the placed ones, with numbers for the names of their labels. -/
def Method.HasNodes (method : Method) (placed : List (Insn String × Nat)) : Prop :=
  ∃ number, method.body.nodes.toList = placed.map fun place => place.1.mapLabels number

namespace Listing

open Text (splitFirst trim words)

/-- The lines are those of a node: one line, or all the lines of a switch. -/
inductive SpellsLines [Overflow] : List (List Char) → Insn String → Prop where
  | line {line keyword operands : List Char} {node : Insn String}
      (shown : isSkipped line = false) (split : splitFirst (trim line) = (keyword, operands))
      (spells : SpellsNode keyword operands node) : SpellsLines [line] node
  | switch {line operands otherwise : List Char} {lines : List (List Char)} {kind : SwitchKind}
      {cases : List (Int32 × String)} {label : String} {node : Insn String}
      (split : splitFirst (trim line) = (kind.keyword, operands)) (bare : words operands = [])
      (spelled : List.Forall₂ (fun line case => SpellsCase line case.1 case.2) lines cases)
      (closed : SpellsTarget otherwise "default".toList label)
      (spells : SpellsSwitch kind cases label node) :
      SpellsLines (line :: (lines ++ [otherwise])) node

/-- Nodes with the places of their first lines. The lines from there on spell the node, and they end
    in front of those of the next node. -/
structure ArePlaced [Overflow] (lines : List (List Char))
    (placed : List (Insn String × Nat)) : Prop where
  spelled : ∀ place ∈ placed,
    SpellsLines ((lines.drop place.2).take place.1.lineCount) place.1
  ordered : placed.Pairwise fun place next => place.2 + place.1.lineCount ≤ next.2

variable {text : String} {line keyword operands : List Char} {lines front : List (List Char)}
  {items : List Item} {item : Item} {node : Insn String} {scope next final : Scope}
  {listing : ClassListing} {draft : Draft} {placed : List (Insn String × Nat)}

/-! ## The lines of a node -/

theorem isSkipped_of_spelled {cases : List (Int32 × String)}
    (spelled : List.Forall₂ (fun line case => SpellsCase line case.1 case.2) lines cases) :
    ∀ line ∈ lines, isSkipped line = false := by
  induction spelled with
  | nil => exact nofun
  | cons spells _ ih =>
    have first := isSkipped_of_readCase (readCase_eq_ok_iff.2 (.inl ⟨_, _, spells, rfl⟩))
    exact List.forall_mem_cons.2 ⟨first, ih⟩

theorem isSkipped_of_closed {label : String} (closed : SpellsTarget line "default".toList label) :
    isSkipped line = false :=
  isSkipped_of_readCase (readCase_eq_ok_iff.2 (.inr ⟨label, closed, rfl⟩))

/-- A node has a line for each label of a table, and one more for the start of the table. -/
theorem lineCount_of_spellsSwitch [Overflow] {kind : SwitchKind} {cases : List (Int32 × String)}
    {label : String} (spells : SpellsSwitch kind cases label node) :
    node.lineCount = cases.length + 2 := by
  cases spells <;> simp [Insn.lineCount]

/-- A line by itself spells no switch. -/
theorem lineCount_of_spellsNode (spells : SpellsNode keyword operands node) :
    node.lineCount = 1 := by
  have noSwitch : ∀ op node, SpellsOperands op operands node → node.lineCount = 1 := by
    intro op node spells
    unfold SpellsOperands at spells
    cases node with
    | tableSwitch => split at spells <;> simp at spells
    | lookupSwitch => split at spells <;> simp at spells
    | _ => rfl
  cases spells with
  | opcode spells => exact noSwitch _ _ spells
  | _ => rfl

/-- The lines of a node are as many as it takes, and none of them is passed over. -/
theorem SpellsLines.spec [Overflow] (spells : SpellsLines lines node) :
    lines.length = node.lineCount ∧ ∀ line ∈ lines, isSkipped line = false := by
  cases spells with
  | line shown split spells =>
    exact ⟨(lineCount_of_spellsNode spells).symm, List.forall_mem_singleton.2 shown⟩
  | @switch header operands otherwise lines kind cases label _ split bare spelled closed spells =>
    have opens : OpensSwitch header kind := ⟨operands, split, bare⟩
    constructor
    · rw [lineCount_of_spellsSwitch spells, ← spelled.length_eq]
      simp
    · rw [List.forall_mem_cons, List.forall_mem_append, List.forall_mem_singleton]
      exact ⟨opens.isSkipped_eq, isSkipped_of_spelled spelled, isSkipped_of_closed closed⟩

/-! ## Placed nodes -/

theorem countP_append_of_shown (shown : ∀ line ∈ lines, isSkipped line = false) :
    (front ++ lines).countP (!isSkipped ·) = front.countP (!isSkipped ·) + lines.length := by
  have all : lines.countP (!isSkipped ·) = lines.length :=
    List.countP_eq_length.2 fun line mem => by simp [shown line mem]
  rw [List.countP_append, all]

/-- The lines of a placed node lie within the lines. -/
theorem ArePlaced.le_length [Overflow] (places : ArePlaced front placed) {place : Insn String × Nat}
    (mem : place ∈ placed) : place.2 + place.1.lineCount ≤ front.length := by
  have whole := (places.spelled place mem).spec.1
  have some_line := place.1.lineCount_pos
  rw [List.length_take, List.length_drop] at whole
  omega

/-- More lines behind them leave the places as they are. -/
theorem ArePlaced.append [Overflow] (places : ArePlaced front placed) (lines : List (List Char)) :
    ArePlaced (front ++ lines) placed where
  spelled := by
    intro place mem
    have inside := places.le_length mem
    rw [List.drop_append_of_le_length (by omega), List.take_append_of_le_length]
    · exact places.spelled place mem
    · rw [List.length_drop]
      omega
  ordered := places.ordered

/-- The lines that come next place one more node. -/
theorem ArePlaced.push [Overflow] (places : ArePlaced front placed)
    (spells : SpellsLines lines node) :
    ArePlaced (front ++ lines) (placed ++ [(node, front.length)]) where
  spelled := by
    rw [List.forall_mem_append, List.forall_mem_singleton]
    refine ⟨(places.append lines).spelled, ?_⟩
    rw [List.drop_left, ← spells.spec.1, List.take_length]
    exact spells
  ordered := by
    rw [List.pairwise_append]
    refine ⟨places.ordered, List.pairwise_singleton _ _, fun place mem last isLast => ?_⟩
    rw [List.mem_singleton.1 isLast]
    exact places.le_length mem

/-- Placed nodes start on different lines, in their order. -/
theorem ArePlaced.pairwise_lt [Overflow] (places : ArePlaced lines placed) :
    (placed.map Prod.snd).Pairwise (· < ·) := by
  rw [List.pairwise_map]
  refine places.ordered.imp fun {place next} behind => ?_
  have some_line := place.1.lineCount_pos
  omega

/-! ## A run accounts for its lines -/

/-- The lines that are read account for what is open: their number, and the places of the nodes. -/
def Accounts [Overflow] (front : List (List Char)) : Scope → Prop
  | .outside => front.countP (!isSkipped ·) = 0
  | .inClass listing =>
    front.countP (!isSkipped ·) = listing.lineCount ∧
      ∃ placed, List.Forall₂ Method.HasNodes listing.methods placed ∧ ArePlaced front placed.flatten
  | .inMethod listing draft =>
    front.countP (!isSkipped ·) =
        listing.lineCount + (1 + (draft.nodes.toList.map Insn.lineCount).sum) ∧
      ∃ placed inner, List.Forall₂ Method.HasNodes listing.methods placed ∧
        draft.nodes.toList = inner.map Prod.fst ∧ ArePlaced front (placed.flatten ++ inner)

/-- The lines are those of an item: a single one, unless the item spells a node on more. -/
structure Item.Covers [Overflow] (item : Item) (lines : List (List Char)) : Prop where
  single : item.isInstruction = false → ∃ line, lines = [line] ∧ isSkipped line = false
  spelled : ∀ node, item.Spells node → SpellsLines lines node

theorem covers_ofLine [Overflow] (shown : isSkipped line = false)
    (split : splitFirst (trim line) = (keyword, operands)) :
    (Item.ofLine keyword operands).Covers [line] where
  single _ := ⟨line, rfl, shown⟩
  spelled := by
    intro node spells
    unfold Item.ofLine at spells
    split_ifs at spells
    all_goals cases spells
    exact .line shown split ‹_›

theorem covers_switch [Overflow] {kind : SwitchKind} {otherwise : List Char}
    {cases : List (List Char)} (split : splitFirst (trim line) = (kind.keyword, operands)) :
    (Item.switch kind operands cases otherwise).Covers (line :: (cases ++ [otherwise])) where
  single := nofun
  spelled := by
    intro node spells
    cases spells with
    | switch bare spelled closed spells => exact .switch split bare spelled closed spells

/-- A line that is passed over changes nothing. -/
theorem Accounts.skip [Overflow] (accounts : Accounts front scope)
    (skipped : isSkipped line = true) : Accounts (front ++ [line]) scope := by
  have same : (front ++ [line]).countP (!isSkipped ·) = front.countP (!isSkipped ·) := by
    simp [skipped]
  cases scope with
  | outside => exact same.trans accounts
  | inClass listing =>
    obtain ⟨count, placed, methods, places⟩ := accounts
    exact ⟨same.trans count, placed, methods, places.append [line]⟩
  | inMethod listing draft =>
    obtain ⟨count, placed, inner, methods, nodes, places⟩ := accounts
    exact ⟨same.trans count, placed, inner, methods, nodes, places.append [line]⟩

/-- The method that a draft is finished as has the nodes of the draft. -/
theorem hasNodes_of_finish {method : Method} {inner : List (Insn String × Nat)}
    (finished : draft.finish = .ok method) (nodes : draft.nodes.toList = inner.map Prod.fst) :
    method.HasNodes inner ∧
      method.lineCount = 2 + (draft.nodes.toList.map Insn.lineCount).sum := by
  obtain ⟨-, rfl⟩ := finish_eq_ok_iff.1 finished
  constructor
  · exact ⟨fun name => ⟨draft.labelNames.idxOf name⟩,
      by simp [Draft.body, nodes, Function.comp_def]⟩
  · simp [Method.lineCount, Draft.body, Function.comp_def]

/-- The lines of an item account for what it changes. -/
theorem Accounts.takes [Overflow] (accounts : Accounts front scope) (takes : scope.Takes item next)
    (covers : item.Covers lines) : Accounts (front ++ lines) next := by
  have more : item.isInstruction = false →
      (front ++ lines).countP (!isSkipped ·) = front.countP (!isSkipped ·) + 1 := by
    intro other
    obtain ⟨line, rfl, shown⟩ := covers.single other
    exact countP_append_of_shown (List.forall_mem_singleton.2 shown)
  cases takes with
  | declare one =>
    refine ⟨?_, [], .nil, by simp, .nil⟩
    rw [more rfl, show front.countP (!isSkipped ·) = 0 from accounts]
    rfl
  | annotateClass one =>
    obtain ⟨count, placed, methods, places⟩ := accounts
    refine ⟨?_, placed, methods, places.append lines⟩
    rw [more rfl, count]
    simp [ClassListing.lineCount]
    omega
  | annotateMethod one =>
    obtain ⟨count, placed, inner, methods, nodes, places⟩ := accounts
    refine ⟨?_, placed, inner, methods, nodes, places.append lines⟩
    rw [more rfl, count]
    simp [ClassListing.lineCount]
    omega
  | begin named described =>
    obtain ⟨count, placed, methods, places⟩ := accounts
    refine ⟨?_, placed, [], methods, rfl, ?_⟩
    · rw [more rfl, count]
      rfl
    · rw [List.append_nil]
      exact places.append lines
  | finish finished =>
    obtain ⟨count, placed, inner, methods, nodes, places⟩ := accounts
    obtain ⟨hasNodes, lineCount⟩ := hasNodes_of_finish finished nodes
    refine ⟨?_, placed ++ [inner], List.rel_append methods (.cons hasNodes .nil), ?_⟩
    · rw [more rfl, count]
      simp [ClassListing.lineCount, lineCount]
      omega
    · simpa using places.append lines
  | @add _ _ _ node spells fresh =>
    obtain ⟨count, placed, inner, methods, nodes, places⟩ := accounts
    have shows := covers.spelled _ spells
    obtain ⟨length, shown⟩ := shows.spec
    refine ⟨?_, placed, inner ++ [(node, front.length)], methods, ?_, ?_⟩
    · rw [countP_append_of_shown shown, length, count]
      simp [Draft.push]
      omega
    · simp [Draft.push, nodes]
    · rw [← List.append_assoc]
      exact places.push shows

/-- The lines of a run account for what is open behind it. -/
theorem Accounts.runs [Overflow] (itemized : Itemizes lines items) (accounts : Accounts front scope)
    (runs : scope.Runs items final) : Accounts (front ++ lines) final := by
  induction itemized generalizing front scope with
  | nil =>
    obtain rfl := Scope.runs_nil_iff.1 runs
    rwa [List.append_nil]
  | skip skipped _ ih =>
    rw [List.append_cons]
    exact ih (accounts.skip skipped) runs
  | line shown split _ _ ih =>
    obtain ⟨next, takes, runs⟩ := Scope.runs_cons_iff.1 runs
    rw [List.append_cons]
    exact ih (accounts.takes takes (covers_ofLine shown split)) runs
  | @switch line operands otherwise cases lines _ _ _ split _ _ _ ih =>
    obtain ⟨next, takes, runs⟩ := Scope.runs_cons_iff.1 runs
    have front_lines : front ++ line :: (cases ++ otherwise :: lines) =
        front ++ (line :: (cases ++ [otherwise])) ++ lines := by simp
    rw [front_lines]
    exact ih (accounts.takes takes (covers_switch split)) runs

/-- The lines of an accepted text that are neither blank nor comments are as many as its class
    takes, and the nodes of its methods stand in the order of their lines, no line in two nodes. -/
theorem countP_lines_of_parse [Overflow] (accepted : parse text = .ok listing) :
    (Text.lines text.toList).countP (!isSkipped ·) =
        1 + listing.annotations.length +
          (listing.methods.map fun method =>
            2 + (method.body.nodes.toList.map Insn.lineCount).sum).sum ∧
      ∃ placed, List.Forall₂ Method.HasNodes listing.methods placed ∧
        ArePlaced (Text.lines text.toList) placed.flatten ∧
        (placed.flatten.map Prod.snd).Pairwise (· < ·) := by
  obtain ⟨items, itemized, runs⟩ := parse_eq_ok_iff.1 accepted
  have start : Accounts [] .outside := rfl
  obtain ⟨count, placed, methods, places⟩ := start.runs itemized runs
  exact ⟨count, placed, methods, places, places.pairwise_lt⟩

/-- Fourteen lines, two of which are passed over: one for the class and one for an annotation inside
    of a method, two for each of two methods, four for a switch and one for each of two labels. -/
theorem countP_lines_switch :
    let text := "class C\nmethod f ()V\nend\n// g\nmethod g ()V\n L1\nannotation LA;\n\n" ++
      "LOOKUPSWITCH\n7: L1\n5: L0\ndefault: L1\n L0\nend"
    let nodes : List Node :=
      [.label ⟨0⟩, .lookupSwitch [7, 5] [⟨0⟩, ⟨1⟩] ⟨0⟩, .label ⟨1⟩]
    let listing : ClassListing :=
      ⟨"C", ["LA;"], [⟨"f", "()V", ⟨#[]⟩⟩, ⟨"g", "()V", ⟨nodes.toArray⟩⟩]⟩
    parse text = .ok listing ∧
      (Text.lines text.toList).countP (!isSkipped ·) = 12 ∧
      ∃ placed, List.Forall₂ Method.HasNodes listing.methods placed ∧
        ArePlaced (Text.lines text.toList) placed.flatten ∧
        (placed.flatten.map Prod.snd).Pairwise (· < ·) := by
  intro text nodes listing
  have accepted : parse text = .ok listing := by decide +kernel
  obtain ⟨count, placed⟩ := countP_lines_of_parse accepted
  exact ⟨accepted, count, placed⟩

end Listing

end BranchSieve
