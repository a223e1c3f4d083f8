import BranchSieve.Proofs.Bytecode.Instructions

/-!
# Labels of a body

A body mentions labels where it places them and where a line number, a branch or a switch refers to
them. A label is looked up at its first place, which is its only one if it is placed once.
-/

namespace BranchSieve

/-- The labels that a body mentions; a place of a label mentions it. -/
def Body.labels (body : Body) : List Label := body.nodes.toList.flatMap Insn.labels

namespace Body

variable {body : Body} {index : Nat} {label : Label}

theorem lt_size_of_get? {node : Node} (there : body.get? index = some node) : index < body.size :=
  (Array.getElem?_eq_some_iff.1 there).1

theorem mem_labels_of_get? {node : Node} {label : Label} (there : body.get? index = some node)
    (mentioned : label ∈ node.labels) : label ∈ body.labels := by
  obtain ⟨inside, rfl⟩ := Array.getElem?_eq_some_iff.1 there
  exact List.mem_flatMap.2 ⟨_, by simp, mentioned⟩

/-- A label is at its first place. -/
theorem labelIndex?_eq_some_iff {label : Label} {place : Nat} :
    body.labelIndex? label = some place ↔
      body.get? place = some (.label label) ∧
        ∀ earlier, earlier < place → body.get? earlier ≠ some (.label label) := by
  rw [labelIndex?, Array.findIdx?_eq_some_iff_getElem]
  simp only [decide_eq_true_eq, get?]
  constructor
  · rintro ⟨inside, there, first⟩
    refine ⟨by simp [inside, there], fun earlier lt here => ?_⟩
    obtain ⟨inside', here⟩ := Array.getElem?_eq_some_iff.1 here
    exact first earlier lt here
  · rintro ⟨there, first⟩
    obtain ⟨inside, there⟩ := Array.getElem?_eq_some_iff.1 there
    exact ⟨inside, there, fun earlier lt here => first earlier lt (by simp [← here])⟩

/-- A label that is placed once is looked up there. -/
theorem exists_labelIndex?_of_count_eq_one
    (once : body.nodes.toList.count (.label label) = 1) :
    ∃ index, body.labelIndex? label = some index ∧
      ∀ place, body.get? place = some (.label label) ↔ place = index := by
  have placed : .label label ∈ body.nodes.toList := List.count_pos_iff.1 (by omega)
  obtain ⟨front, back, split, fresh⟩ := List.eq_append_cons_of_mem placed
  have none_behind : .label label ∉ back := by
    rw [split, List.count_append, List.count_cons_self, List.count_eq_zero.2 fresh] at once
    exact List.count_eq_zero.1 (by omega)
  refine ⟨front.length, labelIndex?_of_append split fresh, fun place => ?_⟩
  rw [get?, ← Array.getElem?_toList, split]
  constructor
  · intro there
    rcases Nat.lt_trichotomy place front.length with before | same | behind
    · rw [List.getElem?_append_left before] at there
      exact absurd (List.mem_of_getElem? there) fresh
    · exact same
    · obtain ⟨later, rfl⟩ := Nat.exists_eq_add_of_lt behind
      rw [List.getElem?_append_right (by omega),
        show front.length + later + 1 - front.length = later + 1 by omega,
        List.getElem?_cons_succ] at there
      exact absurd (List.mem_of_getElem? there) none_behind
  · intro same
    subst same
    simp

end Body

end BranchSieve
