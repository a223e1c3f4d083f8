import BranchSieve.Proofs.Bytecode.Labels
import Mathlib.Data.List.Sort
import Mathlib.Order.Monotone.Basic

/-!
# Padding a body with markers

A body may be padded with further labels, line numbers and frames. The nodes of the body keep their
order, and each has an index in the padded body. What a look-up says about a body it says about the
padded body with the new indices: the instructions are the same ones, and a label of the body leads
to the same instruction.
-/

namespace BranchSieve

/-- A body is padded with markers. A label that one of them places is not a label of the body. -/
structure Padding (body padded : Body) where
  /-- The index in the padded body of the node at an index of the body. -/
  image : Nat → Nat
  strictMono : StrictMono image
  kept : ∀ index, index < body.size → padded.get? (image index) = body.get? index
  inserted : ∀ place node, padded.get? place = some node →
    (∃ index, index < body.size ∧ image index = place) ∨
      node.isMarker = true ∧ ∀ label, node = .label label → label ∉ body.labels

namespace Body

variable {body : Body} {index later : Nat}

/-- Instructions are known by their indices and their nodes. -/
theorem eq_of_mem_iff {instructions instructions' : List (Node × Nat)}
    (sorted : instructions.Pairwise (·.2 < ·.2)) (sorted' : instructions'.Pairwise (·.2 < ·.2))
    (same : ∀ instruction, instruction ∈ instructions ↔ instruction ∈ instructions') :
    instructions = instructions' := by
  have : Std.Irrefl fun a b : Node × Nat => a.2 < b.2 := ⟨fun a => Nat.lt_irrefl a.2⟩
  have : Std.Antisymm fun a b : Node × Nat => a.2 < b.2 :=
    ⟨fun a b lt gt => absurd lt (Nat.lt_asymm gt)⟩
  exact sorted.eq_of_mem_iff sorted' same

end Body

namespace Padding

variable {body padded : Body} (padding : Padding body padded)

/-- An instruction at its index in the padded body. -/
def move (instruction : Node × Nat) : Node × Nat :=
  (instruction.1, padding.image instruction.2)

@[simp]
theorem map_fst_map_move (instructions : List (Node × Nat)) :
    (instructions.map padding.move).map Prod.fst = instructions.map Prod.fst := by
  rw [List.map_map]
  rfl

/-- The instructions of the padded body are those of the body. -/
theorem get?_of_isMarker_eq_false {place : Nat} {node : Node} (opcode : node.isMarker = false) :
    padded.get? place = some node ↔
      ∃ index, body.get? index = some node ∧ padding.image index = place := by
  constructor
  · intro there
    rcases padding.inserted place node there with ⟨index, inside, rfl⟩ | ⟨marker, -⟩
    · exact ⟨index, by rw [← padding.kept index inside, there], rfl⟩
    · simp [opcode] at marker
  · rintro ⟨index, there, rfl⟩
    rw [padding.kept index (Body.lt_size_of_get? there), there]

theorem hasOpcode_iff {place : Nat} :
    padded.HasOpcode place ↔ ∃ index, body.HasOpcode index ∧ padding.image index = place := by
  constructor
  · rintro ⟨node, there, opcode⟩
    obtain ⟨index, found, rfl⟩ := (padding.get?_of_isMarker_eq_false opcode).1 there
    exact ⟨index, ⟨node, found, opcode⟩, rfl⟩
  · rintro ⟨index, ⟨node, found, opcode⟩, rfl⟩
    exact ⟨node, (padding.get?_of_isMarker_eq_false opcode).2 ⟨index, found, rfl⟩, opcode⟩

theorem instructionsFrom_image (index : Nat) :
    padded.instructionsFrom (padding.image index) =
      (body.instructionsFrom index).map padding.move := by
  refine Body.eq_of_mem_iff (Body.pairwise_instructionsFrom _ _) ?_ ?_
  · rw [List.pairwise_map]
    exact (Body.pairwise_instructionsFrom _ _).imp fun lt => padding.strictMono lt
  · rintro ⟨node, place⟩
    simp only [List.mem_map, move, Prod.exists, Prod.mk.injEq, Body.mem_instructionsFrom]
    constructor
    · rintro ⟨ge, there, opcode⟩
      obtain ⟨origin, found, rfl⟩ := (padding.get?_of_isMarker_eq_false opcode).1 there
      exact ⟨node, origin, ⟨padding.strictMono.le_iff_le.1 ge, found, opcode⟩, rfl, rfl⟩
    · rintro ⟨_, origin, ⟨ge, found, opcode⟩, rfl, rfl⟩
      exact ⟨padding.strictMono.monotone ge,
        (padding.get?_of_isMarker_eq_false opcode).2 ⟨origin, found, rfl⟩, opcode⟩

/-- Padding in front of the body adds no instructions. -/
theorem instructionsFrom_zero :
    padded.instructionsFrom 0 = (body.instructionsFrom 0).map padding.move := by
  rw [← padding.instructionsFrom_image]
  refine Body.instructionsFrom_eq_of_none_between (Nat.zero_le _) fun between _ lt opcode => ?_
  obtain ⟨index, -, rfl⟩ := padding.hasOpcode_iff.1 opcode
  exact absurd (padding.strictMono.lt_iff_lt.1 lt) (Nat.not_lt_zero _)

/-- Padding between two nodes adds no instructions. -/
theorem instructionsFrom_image_succ (index : Nat) :
    padded.instructionsFrom (padding.image index + 1) =
      (body.instructionsFrom (index + 1)).map padding.move := by
  rw [← padding.instructionsFrom_image]
  have next : padding.image index < padding.image (index + 1) :=
    padding.strictMono (Nat.lt_succ_self index)
  refine Body.instructionsFrom_eq_of_none_between next fun between ge lt opcode => ?_
  obtain ⟨origin, -, rfl⟩ := padding.hasOpcode_iff.1 opcode
  have above := padding.strictMono.lt_iff_lt.1 (Nat.lt_of_succ_le ge)
  have below := padding.strictMono.lt_iff_lt.1 lt
  omega

/-- A label of the body is placed where the body places it. -/
theorem get?_label {label : Label} (known : label ∈ body.labels) {place : Nat} :
    padded.get? place = some (.label label) ↔
      ∃ index, body.get? index = some (.label label) ∧ padding.image index = place := by
  constructor
  · intro there
    rcases padding.inserted place _ there with ⟨index, inside, rfl⟩ | ⟨-, fresh⟩
    · exact ⟨index, by rw [← padding.kept index inside, there], rfl⟩
    · exact absurd known (fresh label rfl)
  · rintro ⟨index, there, rfl⟩
    rw [padding.kept index (Body.lt_size_of_get? there), there]

theorem labelIndex?_eq_some {label : Label} (known : label ∈ body.labels) {index : Nat}
    (placed : body.labelIndex? label = some index) :
    padded.labelIndex? label = some (padding.image index) := by
  obtain ⟨there, first⟩ := Body.labelIndex?_eq_some_iff.1 placed
  refine Body.labelIndex?_eq_some_iff.2
    ⟨(padding.get?_label known).2 ⟨index, there, rfl⟩, fun earlier lt here => ?_⟩
  obtain ⟨origin, found, rfl⟩ := (padding.get?_label known).1 here
  exact first origin (padding.strictMono.lt_iff_lt.1 lt) found

/-- A label of the body leads to the same instruction. -/
theorem labelTarget?_eq_some {label : Label} (known : label ∈ body.labels) {index : Nat}
    (leads : body.labelTarget? label = some index) :
    padded.labelTarget? label = some (padding.image index) := by
  obtain ⟨place, placed, leads⟩ := Option.bind_eq_some_iff.1 leads
  rw [Body.skipMarkers?_eq_head?] at leads
  obtain ⟨first, head, rfl⟩ := Option.map_eq_some_iff.1 leads
  rw [Body.labelTarget?, padding.labelIndex?_eq_some known placed, Option.bind_some,
    Body.skipMarkers?_eq_head?, padding.instructionsFrom_image, List.head?_map, head]
  rfl

end Padding

/-- The body with further nodes in front of an index. -/
def Body.insert (body : Body) (index : Nat) (nodes : List Node) : Body :=
  ⟨(body.nodes.toList.take index ++ nodes ++ body.nodes.toList.drop index).toArray⟩

theorem Body.get?_insert {body : Body} {index : Nat} (le : index ≤ body.size) (nodes : List Node)
    (place : Nat) :
    (body.insert index nodes).get? place =
      if place < index then body.get? place
      else if place < index + nodes.length then nodes[place - index]?
      else body.get? (place - nodes.length) := by
  have length : (body.nodes.toList.take index).length = index := by
    simpa [size] using le
  rw [insert, get?, List.getElem?_toArray, List.append_assoc]
  split
  · rw [List.getElem?_append_left (by omega), List.getElem?_take_of_lt (by omega)]
    simp [get?]
  · rw [List.getElem?_append_right (by omega), length]
    split
    · rw [List.getElem?_append_left (by omega)]
    · rw [List.getElem?_append_right (by omega), List.getElem?_drop, Array.getElem?_toList, get?]
      congr 1
      omega

/-- Markers in front of an index pad a body if they place none of its labels. -/
def Padding.insert (body : Body) (index : Nat) (le : index ≤ body.size) (markers : List Node)
    (marker : ∀ node ∈ markers, node.isMarker = true)
    (fresh : ∀ label ∈ body.labels, .label label ∉ markers) :
    Padding body (body.insert index markers) where
  image place := if place < index then place else place + markers.length
  strictMono := by
    intro place later lt
    dsimp only
    split <;> split <;> omega
  kept place _ := by
    rw [Body.get?_insert le]
    by_cases front : place < index
    · simp [front]
    · simp [front, show ¬ place + markers.length < index by omega]
  inserted place node there := by
    rw [Body.get?_insert le] at there
    split at there
    · next front => exact .inl ⟨place, Body.lt_size_of_get? there, by simp [front]⟩
    · next behind =>
      split at there
      · have mem : node ∈ markers := List.mem_of_getElem? there
        refine .inr ⟨marker node mem, fun label same known => fresh label known ?_⟩
        rwa [← same]
      · have back : ¬ place - markers.length < index := by omega
        refine .inl ⟨place - markers.length, Body.lt_size_of_get? there, ?_⟩
        rw [if_neg back]
        omega

end BranchSieve
