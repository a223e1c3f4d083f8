import BranchSieve.Proofs.Bytecode.Counting
import BranchSieve.Proofs.Bytecode.Padding

/-!
# Replacing an instruction

A body in which an instruction gives way to another one keeps the places of its instructions, and
its labels lead where they led. Only what is read at the place itself is new.
-/

namespace BranchSieve.Body

/-- The body with another node at an index. -/
def replace (body : Body) (index : Nat) (node : Node) : Body :=
  ⟨body.nodes.setIfInBounds index node⟩

/-- An instruction after the replacement at an index. -/
def exchange (index : Nat) (node : Node) (instruction : Node × Nat) : Node × Nat :=
  if instruction.2 = index then (node, index) else instruction

@[simp]
theorem snd_exchange (index : Nat) (node : Node) (instruction : Node × Nat) :
    (exchange index node instruction).2 = instruction.2 := by
  unfold exchange
  split
  · next same => exact same.symm
  · rfl

theorem exchange_self (index : Nat) (node old : Node) :
    exchange index node (old, index) = (node, index) := if_pos rfl

theorem exchange_of_ne {index : Nat} {node : Node} {instruction : Node × Nat}
    (ne : instruction.2 ≠ index) : exchange index node instruction = instruction := if_neg ne

/-- Where the index does not occur, nothing changes. -/
theorem map_exchange_of_forall_ne {index : Nat} {node : Node} {instructions : List (Node × Nat)}
    (apart : ∀ instruction ∈ instructions, instruction.2 ≠ index) :
    instructions.map (exchange index node) = instructions := by
  rw [List.map_congr_left fun instruction mem => exchange_of_ne (apart instruction mem),
    List.map_id']

/-- The new instruction is found where the former one was. -/
theorem mem_map_exchange {index : Nat} {node old : Node} {instructions : List (Node × Nat)}
    (mem : (old, index) ∈ instructions) : (node, index) ∈ instructions.map (exchange index node) :=
  List.mem_map.2 ⟨(old, index), mem, exchange_self _ _ _⟩

theorem get?_replace {body : Body} {index : Nat} (inside : index < body.size) (node : Node)
    (place : Nat) : (body.replace index node).get? place =
      if place = index then some node else body.get? place := by
  rw [replace, get?, get?, Array.getElem?_setIfInBounds]
  by_cases same : place = index
  · subst same
    rw [if_pos rfl, if_pos rfl, if_pos (show place < body.nodes.size from inside)]
  · rw [if_neg (Ne.symm same), if_neg same]

section Instruction

variable {body : Body} {index : Nat} {node : Node} (carried : body.HasOpcode index)
  (opcode : node.isMarker = false)

include carried opcode

/-- What has no opcode is not touched. -/
theorem get?_replace_eq_marker_iff {marker : Node} (isMarker : marker.isMarker = true)
    {place : Nat} :
    (body.replace index node).get? place = some marker ↔ body.get? place = some marker := by
  obtain ⟨old, there, opcode'⟩ := carried
  rw [get?_replace (lt_size_of_get? there)]
  by_cases same : place = index
  · subst same
    have new : node ≠ marker := by rintro rfl; simp [opcode] at isMarker
    have former : old ≠ marker := by rintro rfl; simp [opcode'] at isMarker
    simp [there, new, former]
  · rw [if_neg same]

theorem labelIndex?_replace (label : Label) :
    (body.replace index node).labelIndex? label = body.labelIndex? label := by
  ext place
  simp only [labelIndex?_eq_some_iff,
    get?_replace_eq_marker_iff carried opcode (show (Insn.label label).isMarker = true from rfl),
    ne_eq]

/-- The instructions are the former ones, up to the new one. -/
theorem instructionsFrom_replace (first : Nat) :
    (body.replace index node).instructionsFrom first =
      (body.instructionsFrom first).map (exchange index node) := by
  obtain ⟨old, there, opcode'⟩ := carried
  have look_up := get?_replace (lt_size_of_get? there) node
  refine eq_of_mem_iff (pairwise_instructionsFrom _ _) ?_ ?_
  · rw [List.pairwise_map]
    simpa using pairwise_instructionsFrom body first
  · rintro ⟨found, place⟩
    rw [mem_instructionsFrom, look_up, List.mem_map]
    by_cases same : place = index
    · subst same
      rw [if_pos rfl]
      constructor
      · rintro ⟨ge, here, -⟩
        obtain rfl := Option.some.inj here
        exact ⟨(old, place), mem_instructionsFrom.2 ⟨ge, there, opcode'⟩, exchange_self _ _ _⟩
      · rintro ⟨⟨former, _⟩, mem, moved⟩
        obtain rfl := (snd_exchange _ _ _).symm.trans (congrArg Prod.snd moved)
        rw [exchange_self] at moved
        obtain rfl := (Prod.mk.inj moved).1
        exact ⟨(mem_instructionsFrom.1 mem).1, rfl, opcode⟩
    · rw [if_neg same]
      constructor
      · intro h
        exact ⟨(found, place), mem_instructionsFrom.2 h, exchange_of_ne same⟩
      · rintro ⟨instruction, mem, moved⟩
        have elsewhere : instruction.2 ≠ index := by
          rw [← snd_exchange index node instruction, moved]
          exact same
        rw [exchange_of_ne elsewhere] at moved
        subst moved
        exact mem_instructionsFrom.1 mem

theorem getElem?_instructionsFrom_replace {old : Node} {first number : Nat}
    (found : (body.instructionsFrom first)[number]? = some (old, index)) :
    ((body.replace index node).instructionsFrom first)[number]? = some (node, index) := by
  rw [instructionsFrom_replace carried opcode, List.getElem?_map, found, Option.map_some,
    exchange_self]

theorem placeFrom?_replace (first number : Nat) :
    (body.replace index node).placeFrom? first number = body.placeFrom? first number := by
  simp [placeFrom?, instructionsFrom_replace carried opcode, Function.comp_def]

theorem nextOpcode?_replace (place : Nat) :
    (body.replace index node).nextOpcode? place = body.nextOpcode? place := by
  rw [nextOpcode?_eq_placeFrom?, nextOpcode?_eq_placeFrom?, placeFrom?_replace carried opcode]

theorem hasOpcode_replace {place : Nat} :
    (body.replace index node).HasOpcode place ↔ body.HasOpcode place := by
  have same := congrArg (List.map Prod.snd) (instructionsFrom_replace carried opcode place)
  rw [List.map_map, show Prod.snd ∘ exchange index node = Prod.snd from
    funext (snd_exchange index node)] at same
  have member : ∀ body : Body, body.HasOpcode place ↔
      place ∈ (body.instructionsFrom place).map Prod.snd := by
    intro body
    simp [hasOpcode_iff_mem]
  rw [member, member, same]

/-- Up to an instruction in front of the index, nothing changes. -/
theorem nodesFrom_replace_of_lt {first number last : Nat}
    (found : body.placeFrom? first number = some last) (lt : last < index) :
    (body.replace index node).nodesFrom first (number + 1) = body.nodesFrom first (number + 1) := by
  rw [nodesFrom, instructionsFrom_replace carried opcode, ← List.map_take,
    map_exchange_of_forall_ne, nodesFrom]
  intro instruction mem
  have le := ((mem_take_iff found).1 mem).2
  omega

/-- The new node is one of those that the former one was one of. -/
theorem mem_nodesFrom_replace {old : Node} {first count : Nat}
    (mem : (old, index) ∈ (body.instructionsFrom first).take count) :
    node ∈ (body.replace index node).nodesFrom first count := by
  rw [nodesFrom, instructionsFrom_replace carried opcode, ← List.map_take]
  exact List.mem_map_of_mem (f := Prod.fst) (mem_map_exchange mem)

theorem labelTarget?_replace (label : Label) :
    (body.replace index node).labelTarget? label = body.labelTarget? label := by
  rw [labelTarget?, labelTarget?, labelIndex?_replace carried opcode]
  congr 1
  ext first place
  simp [skipMarkers?_eq_head?, instructionsFrom_replace carried opcode, Function.comp_def]

theorem instructionsBetween_replace (first later : Nat) :
    (body.replace index node).instructionsBetween first later =
      (body.instructionsBetween first later).map (exchange index node) := by
  rcases Nat.le_total first later with le | ge
  · have whole := instructionsFrom_replace carried opcode first
    rw [instructionsFrom_eq_append _ le, instructionsFrom_eq_append body le, List.map_append,
      instructionsFrom_replace carried opcode later] at whole
    exact List.append_cancel_right whole
  · rw [instructionsBetween_of_le ge, instructionsBetween_of_le ge, List.map_nil]

/-- Behind the index, nothing changes. -/
theorem instructionsFrom_replace_of_lt {first : Nat} (lt : index < first) :
    (body.replace index node).instructionsFrom first = body.instructionsFrom first := by
  rw [instructionsFrom_replace carried opcode]
  refine map_exchange_of_forall_ne fun instruction mem same => ?_
  exact absurd (mem_instructionsFrom.1 mem).1 (by omega)

theorem instructionsBetween_replace_of_lt {first : Nat} (lt : index < first) (later : Nat) :
    (body.replace index node).instructionsBetween first later =
      body.instructionsBetween first later := by
  rw [instructionsBetween_replace carried opcode]
  refine map_exchange_of_forall_ne fun instruction mem same => ?_
  exact absurd (bounds_of_mem_instructionsBetween mem).1 (by omega)

/-- In front of the replaced instruction and behind it, nothing changes. -/
theorem instructionsFrom_replace_of_append {old : Node} {first : Nat}
    {front rest : List (Node × Nat)}
    (split : body.instructionsFrom first = front ++ (old, index) :: rest) :
    (body.replace index node).instructionsFrom first = front ++ (node, index) :: rest := by
  have ordered := pairwise_instructionsFrom body first
  rw [split, List.pairwise_append, List.pairwise_cons] at ordered
  obtain ⟨-, ⟨later, -⟩, earlier⟩ := ordered
  rw [instructionsFrom_replace carried opcode, split, List.map_append, List.map_cons, exchange_self,
    map_exchange_of_forall_ne fun instruction mem same => ?_,
    map_exchange_of_forall_ne fun instruction mem same => ?_]
  · exact absurd (later instruction mem) (by omega)
  · exact absurd (earlier instruction mem _ List.mem_cons_self) (by omega)

end Instruction

end BranchSieve.Body
