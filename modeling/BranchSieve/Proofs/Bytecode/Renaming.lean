import BranchSieve.Proofs.Bytecode.Labels
import Mathlib.Data.Set.Function

/-!
# Renaming labels

A renaming of the labels of a body keeps the nodes where they are, and each keeps its opcode. If the
renaming tells the labels apart that the body mentions, the places of a label are the places of its
new name. So a label leads where it led, however often it is placed, and one that is not placed
still leads nowhere.
-/

namespace BranchSieve

namespace Insn

variable {ℓ ℓ' ℓ'' : Type} {node : Insn ℓ}

theorem mapLabels_mapLabels (f : ℓ → ℓ') (g : ℓ' → ℓ'') :
    (node.mapLabels f).mapLabels g = node.mapLabels (g ∘ f) := by
  cases node <;> simp [mapLabels]

/-- Only what a renaming does to the labels of a node counts. -/
theorem mapLabels_congr {f g : ℓ → ℓ'} (same : ∀ label ∈ node.labels, f label = g label) :
    node.mapLabels f = node.mapLabels g := by
  cases node with
  | label l => rw [mapLabels, mapLabels, same l (by simp [labels])]
  | line number start => rw [mapLabels, mapLabels, same start (by simp [labels])]
  | jump op target => rw [mapLabels, mapLabels, same target (by simp [labels])]
  | tableSwitch min max targets otherwise =>
    rw [mapLabels, mapLabels, same otherwise (by simp [labels]),
      List.map_congr_left fun label mem => same label (by simp [labels, mem])]
  | lookupSwitch keys targets otherwise =>
    rw [mapLabels, mapLabels, same otherwise (by simp [labels]),
      List.map_congr_left fun label mem => same label (by simp [labels, mem])]
  | _ => rfl

/-- A node keeps the labels that a renaming keeps. -/
theorem mapLabels_of_forall_eq {f : ℓ → ℓ} (same : ∀ label ∈ node.labels, f label = label) :
    node.mapLabels f = node := by
  rw [mapLabels_congr (g := id) same]
  cases node <;> simp [mapLabels]

/-- A renaming makes a place of a label of no other node. -/
theorem mapLabels_eq_label_iff {f : ℓ → ℓ'} {label : ℓ'} :
    node.mapLabels f = .label label ↔ ∃ l, node = .label l ∧ f l = label := by
  cases node <;> simp [mapLabels]

end Insn

namespace Body

/-- The body with other labels. -/
def mapLabels (f : Label → Label) (body : Body) : Body :=
  ⟨body.nodes.map (Insn.mapLabels f)⟩

section

variable (f : Label → Label) (body : Body)

@[simp]
theorem size_mapLabels : (body.mapLabels f).size = body.size :=
  Array.size_map

@[simp]
theorem get?_mapLabels (index : Nat) :
    (body.mapLabels f).get? index = (body.get? index).map (Insn.mapLabels f) :=
  Array.getElem?_map

@[simp]
theorem next?_mapLabels (index : Nat) : (body.mapLabels f).next? index = body.next? index := by
  simp only [next?, size_mapLabels]

@[simp]
theorem skipMarkers?_mapLabels (index : Nat) :
    (body.mapLabels f).skipMarkers? index = body.skipMarkers? index := by
  fun_induction skipMarkers? body index with
  | case1 index inside marker ih =>
    rw [skipMarkers?]
    simp [mapLabels, inside, marker, ← ih]
  | case2 index inside opcode =>
    rw [skipMarkers?]
    simp [mapLabels, inside, opcode]
  | case3 index outside =>
    apply skipMarkers?_of_size_le
    rw [size_mapLabels]
    exact Nat.not_lt.1 outside

@[simp]
theorem nextOpcode?_mapLabels (index : Nat) :
    (body.mapLabels f).nextOpcode? index = body.nextOpcode? index := by
  simp only [nextOpcode?, next?_mapLabels, skipMarkers?_mapLabels]

end

section Injective

variable {f : Label → Label} {body : Body} (inj : Set.InjOn f {label | label ∈ body.labels})
  {label : Label} (mentioned : label ∈ body.labels)

include inj mentioned

/-- The places of a label are the places of its new name. -/
theorem get?_mapLabels_eq_label_iff {place : Nat} :
    (body.mapLabels f).get? place = some (.label (f label)) ↔
      body.get? place = some (.label label) := by
  rw [get?_mapLabels, Option.map_eq_some_iff]
  constructor
  · rintro ⟨node, there, renamed⟩
    obtain ⟨twin, rfl, same⟩ := Insn.mapLabels_eq_label_iff.1 renamed
    rwa [← inj (mem_labels_of_get? there (by simp [Insn.labels])) mentioned same]
  · intro there
    exact ⟨_, there, rfl⟩

theorem labelIndex?_mapLabels :
    (body.mapLabels f).labelIndex? (f label) = body.labelIndex? label := by
  ext place
  simp only [labelIndex?_eq_some_iff, ne_eq, get?_mapLabels_eq_label_iff inj mentioned]

theorem labelTarget?_mapLabels :
    (body.mapLabels f).labelTarget? (f label) = body.labelTarget? label := by
  rw [labelTarget?, labelTarget?, labelIndex?_mapLabels inj mentioned]
  simp only [skipMarkers?_mapLabels]

end Injective

end Body

end BranchSieve
