import BranchSieve.Bytecode.Insn

/-!
# Method bodies

A body is a sequence of nodes that are addressed by their index. Every look-up is defined at every
index and gives nothing beyond the end. A label leads to the first node with an opcode at or after
its first place. The lemmas say that skipping markers finds the least such index.
-/

namespace BranchSieve

/-- The nodes of one method. -/
structure Body where
  nodes : Array Node
  deriving DecidableEq, Repr

namespace Body

/-- The number of nodes. -/
def size (body : Body) : Nat := body.nodes.size

/-- The node at an index. -/
def get? (body : Body) (index : Nat) : Option Node := body.nodes[index]?

/-- The index of the first node. -/
def first? (body : Body) : Option Nat :=
  if 0 < body.size then some 0 else none

/-- The index of the node after the one at an index. -/
def next? (body : Body) (index : Nat) : Option Nat :=
  if index + 1 < body.size then some (index + 1) else none

/-- The index of the first place of a label. -/
def labelIndex? (body : Body) (label : Label) : Option Nat :=
  body.nodes.findIdx? (· = .label label)

/-- The index of the first node with an opcode, from an index on. -/
def skipMarkers? (body : Body) (index : Nat) : Option Nat :=
  if h : index < body.nodes.size then
    if body.nodes[index].isMarker then body.skipMarkers? (index + 1) else some index
  else none
termination_by body.nodes.size - index

/-- The index of the first node with an opcode after the one at an index. -/
def nextOpcode? (body : Body) (index : Nat) : Option Nat :=
  (body.next? index).bind body.skipMarkers?

/-- The index of the first node with an opcode that a label leads to. -/
def labelTarget? (body : Body) (label : Label) : Option Nat :=
  (body.labelIndex? label).bind body.skipMarkers?

/-- Equality of bodies with constants compared as values. -/
def sameValue (a b : Body) : Bool :=
  a.nodes.isEqv b.nodes Insn.sameValue

/-- An index carries an opcode if the node there is no marker. -/
def HasOpcode (body : Body) (index : Nat) : Prop :=
  ∃ node, body.get? index = some node ∧ node.isMarker = false

theorem skipMarkers?_of_size_le {body : Body} {index : Nat} (h : body.size ≤ index) :
    body.skipMarkers? index = none := by
  rw [skipMarkers?, dif_neg (show ¬ index < body.nodes.size from Nat.not_lt.2 h)]

/-- Skipping markers ends on an opcode and passes none. -/
theorem hasOpcode_of_skipMarkers? {body : Body} {index found : Nat}
    (h : body.skipMarkers? index = some found) :
    index ≤ found ∧ body.HasOpcode found ∧
      ∀ between, index ≤ between → between < found → ¬ body.HasOpcode between := by
  fun_induction skipMarkers? body index with
  | case1 index inside marker ih =>
    obtain ⟨le, opcode, least⟩ := ih h
    refine ⟨by omega, opcode, fun between ge lt => ?_⟩
    rcases Nat.eq_or_lt_of_le ge with rfl | later
    · rintro ⟨node, here, isNot⟩
      simp only [get?, inside, getElem?_pos, Option.some.injEq] at here
      simp [← here, marker] at isNot
    · exact least between later lt
  | case2 index inside notMarker =>
    simp only [Option.some.injEq] at h
    subst h
    exact ⟨Nat.le_refl _, ⟨body.nodes[index], by simp [get?, inside], by simpa using notMarker⟩,
      fun _ ge lt => absurd lt (Nat.not_lt.2 ge)⟩
  | case3 => simp at h

/-- Markers are skipped in vain only where no opcode follows. -/
theorem not_hasOpcode_of_skipMarkers?_eq_none {body : Body} {index : Nat}
    (h : body.skipMarkers? index = none) {later : Nat} (le : index ≤ later) :
    ¬ body.HasOpcode later := by
  fun_induction skipMarkers? body index with
  | case1 index inside marker ih =>
    rcases Nat.eq_or_lt_of_le le with rfl | lt
    · rintro ⟨node, here, isNot⟩
      simp only [get?, inside, getElem?_pos, Option.some.injEq] at here
      simp [← here, marker] at isNot
    · exact ih h lt
  | case2 => simp at h
  | case3 index outside =>
    rintro ⟨node, here, _⟩
    simp [get?, Array.getElem?_eq_none (Nat.le_trans (Nat.not_lt.1 outside) le)] at here

end Body

end BranchSieve
