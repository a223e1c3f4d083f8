import BranchSieve.Proofs.Bytecode.Labels

/-!
# Instructions by number

The instructions from an index on can be counted: number zero is the first of them. Counting goes
forward only and says nothing about the markers between. An instruction is found at one index, the
index grows with the number, and from further behind no instruction of the same number is found
further in front.
-/

namespace BranchSieve.Body

/-- The nodes of as many instructions from an index on, or of all of them if there are fewer. -/
def nodesFrom (body : Body) (index count : Nat) : List Node :=
  ((body.instructionsFrom index).take count).map Prod.fst

/-- The index of an instruction from an index on, by its number. -/
def placeFrom? (body : Body) (index number : Nat) : Option Nat :=
  (body.instructionsFrom index)[number]?.map Prod.snd

variable {body : Body} {index later number place : Nat}

/-- The node after the one at an index comes as number zero from behind it. -/
theorem nextOpcode?_eq_placeFrom? (body : Body) (index : Nat) :
    body.nextOpcode? index = body.placeFrom? (index + 1) 0 := by
  rw [nextOpcode?_eq_head?, placeFrom?, List.head?_eq_getElem?]

/-- An instruction that is found by its number is one of those from there on. -/
theorem exists_mem_of_placeFrom? (found : body.placeFrom? index number = some place) :
    ∃ node, (node, place) ∈ body.instructionsFrom index := by
  obtain ⟨⟨node, _⟩, there, rfl⟩ := Option.map_eq_some_iff.1 found
  exact ⟨node, List.mem_of_getElem? there⟩

theorem le_of_placeFrom? (found : body.placeFrom? index number = some place) : index ≤ place := by
  obtain ⟨node, mem⟩ := exists_mem_of_placeFrom? found
  exact (mem_instructionsFrom.1 mem).1

theorem hasOpcode_of_placeFrom? (found : body.placeFrom? index number = some place) :
    body.HasOpcode place := by
  obtain ⟨node, mem⟩ := exists_mem_of_placeFrom? found
  exact ⟨node, (mem_instructionsFrom.1 mem).2⟩

theorem HasOpcode.lt_size (opcode : body.HasOpcode place) : place < body.size := by
  obtain ⟨node, there, -⟩ := opcode
  exact lt_size_of_get? there

/-- The index of an instruction grows with its number. -/
theorem lt_of_placeFrom? {number' place' : Nat} (found : body.placeFrom? index number = some place)
    (found' : body.placeFrom? index number' = some place') (lt : number < number') :
    place < place' := by
  obtain ⟨instruction, there, rfl⟩ := Option.map_eq_some_iff.1 found
  obtain ⟨instruction', there', rfl⟩ := Option.map_eq_some_iff.1 found'
  obtain ⟨inside, rfl⟩ := List.getElem?_eq_some_iff.1 there
  obtain ⟨inside', rfl⟩ := List.getElem?_eq_some_iff.1 there'
  exact List.pairwise_iff_getElem.1 (pairwise_instructionsFrom body index) _ _ inside inside' lt

/-- From a later index, an instruction is found by its number no further in front. -/
theorem placeFrom?_mono (le : index ≤ later) {place' : Nat}
    (found : body.placeFrom? index number = some place)
    (found' : body.placeFrom? later number = some place') : place ≤ place' := by
  have apart := instructionsFrom_eq_append body le
  have moved : body.placeFrom? index ((body.instructionsBetween index later).length + number) =
      some place' := by
    rw [placeFrom?, apart, List.getElem?_append_right (Nat.le_add_right _ _),
      Nat.add_sub_cancel_left]
    exact found'
  by_cases skipped : (body.instructionsBetween index later).length = 0
  · rw [skipped, Nat.zero_add, found] at moved
    exact Nat.le_of_eq (Option.some.inj moved)
  · exact Nat.le_of_lt (lt_of_placeFrom? found moved (by omega))

/-- The instructions in front of one that is found by its number, and those behind it. -/
theorem exists_split_of_placeFrom? (found : body.placeFrom? index number = some place) :
    ∃ front node, front.length = number ∧
      body.instructionsFrom index =
        front ++ (node, place) :: body.instructionsFrom (place + 1) := by
  obtain ⟨⟨node, _⟩, there, rfl⟩ := Option.map_eq_some_iff.1 found
  obtain ⟨inside, here⟩ := List.getElem?_eq_some_iff.1 there
  have split := List.take_append_drop number (body.instructionsFrom index)
  rw [List.drop_eq_getElem_cons inside, here] at split
  refine ⟨(body.instructionsFrom index).take number, node,
    List.length_take_of_le (Nat.le_of_lt inside), ?_⟩
  rw [← eq_instructionsFrom_of_append _ split.symm, split]

/-- The instructions up to one of them, by its number. -/
theorem nodesFrom_and_placeFrom?_iff {nodes : List Node} (length : nodes.length = number + 1) :
    body.nodesFrom index (number + 1) = nodes ∧ body.placeFrom? index number = some place ↔
      ∃ front node rest, body.instructionsFrom index = front ++ (node, place) :: rest ∧
        front.map Prod.fst ++ [node] = nodes := by
  constructor
  · rintro ⟨rfl, found⟩
    obtain ⟨front, node, count, ahead⟩ := exists_split_of_placeFrom? found
    refine ⟨front, node, _, ahead, ?_⟩
    rw [nodesFrom, ahead, ← count, List.take_append, List.take_of_length_le (Nat.le_succ _)]
    simp
  · rintro ⟨front, node, rest, ahead, rfl⟩
    have count : front.length = number := by simpa using length
    subst count
    rw [nodesFrom, placeFrom?, ahead, List.take_append, List.take_of_length_le (Nat.le_succ _)]
    simp

/-- The instructions up to one of them are those that do not stand behind it. -/
theorem mem_take_iff {last : Nat} (found : body.placeFrom? index number = some last)
    {instruction : Node × Nat} :
    instruction ∈ (body.instructionsFrom index).take (number + 1) ↔
      instruction ∈ body.instructionsFrom index ∧ instruction.2 ≤ last := by
  obtain ⟨front, node, count, ahead⟩ := exists_split_of_placeFrom? found
  have ends : (body.instructionsFrom index).take (number + 1) = front ++ [(node, last)] := by
    rw [ahead, ← count, List.take_append, List.take_of_length_le (Nat.le_succ _)]
    simp
  have split : body.instructionsFrom index =
      [] ++ (front ++ [(node, last)]) ++ body.instructionsFrom (last + 1) := by
    simpa using ahead
  rw [ends]
  constructor
  · intro mem
    refine ⟨?_, le_last_of_mem split mem⟩
    rw [split]
    exact List.mem_append_left _ mem
  · rintro ⟨mem, le⟩
    rw [split, List.mem_append] at mem
    rcases mem with mem | behind
    · exact mem
    · exact absurd (mem_instructionsFrom.1 behind).1 (Nat.not_lt.2 le)

/-- The next instruction is the least one behind an index. -/
theorem le_of_nextOpcode? {next : Nat} (found : body.nextOpcode? index = some next)
    (opcode : body.HasOpcode later) (lt : index < later) : next ≤ later := by
  obtain ⟨start, follows, skipped⟩ := Option.bind_eq_some_iff.1 found
  obtain ⟨-, behind⟩ := Option.ite_none_right_eq_some.1 follows
  obtain rfl := Option.some.inj behind
  by_contra beyond
  exact (hasOpcode_of_skipMarkers? skipped).2.2 later lt (Nat.not_le.1 beyond) opcode

/-- Instructions in front of the same one are the same. -/
theorem eq_of_nextOpcode?_eq {next : Nat} (found : body.nextOpcode? index = some next)
    (found' : body.nextOpcode? later = some next) (opcode : body.HasOpcode index)
    (opcode' : body.HasOpcode later) : index = later := by
  have ahead : index < next := by
    rw [nextOpcode?_eq_placeFrom?] at found
    exact le_of_placeFrom? found
  have ahead' : later < next := by
    rw [nextOpcode?_eq_placeFrom?] at found'
    exact le_of_placeFrom? found'
  rcases Nat.lt_trichotomy index later with lt | same | gt
  · exact absurd (le_of_nextOpcode? found opcode' lt) (Nat.not_le.2 ahead')
  · exact same
  · exact absurd (le_of_nextOpcode? found' opcode gt) (Nat.not_le.2 ahead)

end BranchSieve.Body
