import BranchSieve.Proofs.Bytecode.Padding
import BranchSieve.Proofs.Bytecode.Renaming
import BranchSieve.Proofs.Coroutine.Scan

/-!
# Label numbers

The recognizer never asks for the number of a label. An expectation admits a node or not whatever
labels it mentions, so a matcher walks over a body with renamed labels as over the body itself. The
labels of a table and of a branch are looked up in the body, and there they lead where they led if
the renaming tells the labels apart that the body mentions.
-/

namespace BranchSieve

/-! ## Matching -/

section Matching

variable (f : Label → Label)

namespace Expectation

@[simp]
theorem admits_mapLabels (expectation : Expectation) (node : Node) :
    expectation.admits (node.mapLabels f) = expectation.admits node := by
  cases expectation with
  | opcode op => rw [admits, admits, Insn.opcode?_mapLabels]
  | _ => cases node <;> rfl

@[simp]
theorem binding?_mapLabels (expectation : Expectation) (node : Node) :
    expectation.binding? (node.mapLabels f) = expectation.binding? node := by
  cases expectation <;> cases node <;> rfl

@[simp]
theorem meet?_mapLabels (expectation : Expectation) (bindings : Bindings) (node : Node) :
    expectation.meet? bindings (node.mapLabels f) = expectation.meet? bindings node := by
  simp only [meet?, admits_mapLabels, binding?_mapLabels]

end Expectation

namespace Matcher

/-- The matcher at the same place of the body with other labels. -/
def mapLabels (m : Matcher) : Matcher := { m with body := m.body.mapLabels f }

theorem start_mapLabels (body : Body) : start (body.mapLabels f) = (start body).mapLabels f := rfl

variable (m : Matcher)

@[simp]
theorem body_mapLabels : (m.mapLabels f).body = m.body.mapLabels f := rfl

@[simp]
theorem position?_mapLabels : (m.mapLabels f).position? = m.position? := rfl

@[simp]
theorem node?_mapLabels : (m.mapLabels f).node? = m.node?.map (Insn.mapLabels f) := by
  rw [node?, node?, position?_mapLabels, body_mapLabels, Option.map_bind]
  congr 1
  exact funext (Body.get?_mapLabels f m.body)

@[simp]
theorem moveTo_mapLabels (index : Nat) :
    (m.mapLabels f).moveTo index = (m.moveTo index).mapLabels f := by
  simp only [moveTo, mapLabels, Body.size_mapLabels]

theorem upcoming?_mapLabels : (m.mapLabels f).upcoming? = m.upcoming? := by
  cases cursor : m.cursor <;> simp [upcoming?, mapLabels, cursor]

theorem meet?_mapLabels (expectation : Expectation) :
    (m.mapLabels f).meet? expectation = m.meet? expectation := by
  rw [meet?, meet?, upcoming?_mapLabels]
  simp [mapLabels, Option.bind_map]

@[simp]
theorem expect_mapLabels (expectation : Expectation) :
    (m.mapLabels f).expect expectation = (m.expect expectation).mapLabels f := by
  rw [expect, expect, meet?_mapLabels]
  cases m.meet? expectation <;> rfl

@[simp]
theorem expectAll_mapLabels (expectations : List Expectation) :
    (m.mapLabels f).expectAll expectations = (m.expectAll expectations).mapLabels f := by
  induction expectations generalizing m with
  | nil => rfl
  | cons expectation rest ih =>
    rw [expectAll_cons, expect_mapLabels, ih, expectAll_cons]

end Matcher

end Matching

/-! ## Recognizing -/

namespace Coroutine

theorem findResumedEnd?_mapLabels (f : Label → Label) (m : Matcher) (first continuation : Nat) :
    findResumedEnd? (m.mapLabels f) first continuation = findResumedEnd? m first continuation := by
  have resumed : resumedEnd? (m.mapLabels f) continuation = resumedEnd? m continuation := by
    funext index
    simp [resumedEnd?]
  simp [findResumedEnd?, resumed]

section Injective

variable {f : Label → Label} {m : Matcher} (inj : Set.InjOn f {label | label ∈ m.body.labels})

include inj

/-- The branch of a comparison and the case of the table lead where they led. -/
theorem continuation?_mapLabels {resumption : Label} (mentioned : resumption ∈ m.body.labels)
    (index : Nat) :
    continuation? (m.mapLabels f) (f resumption) index = continuation? m resumption index := by
  unfold continuation?
  simp only [Matcher.moveTo_mapLabels, Matcher.expectAll_mapLabels, Matcher.node?_mapLabels]
  cases found : ((m.moveTo index).expectAll comparison).node? with
  | none => rfl
  | some node =>
    cases node with
    | jump op target =>
      obtain ⟨place, -, there⟩ := Option.bind_eq_some_iff.1 found
      have mentioned' : target ∈ m.body.labels := by
        rw [Matcher.body_expectAll] at there
        exact Body.mem_labels_of_get? there (by simp [Insn.labels])
      simp [Insn.mapLabels, Body.labelTarget?_mapLabels inj mentioned,
        Body.labelTarget?_mapLabels inj mentioned']
    | _ => rfl

theorem findSuspension?_mapLabels {resumption : Label} (mentioned : resumption ∈ m.body.labels)
    (first : Nat) :
    findSuspension? (m.mapLabels f) (f resumption) first = findSuspension? m resumption first := by
  simp [findSuspension?, continuation?_mapLabels inj mentioned]

theorem suspensionRanges?_mapLabels {resumptions : List Label}
    (mentioned : ∀ label ∈ resumptions, label ∈ m.body.labels) (first : Nat) :
    suspensionRanges? (m.mapLabels f) (resumptions.map f) first =
      suspensionRanges? m resumptions first := by
  induction resumptions generalizing first with
  | nil => rfl
  | cons resumption resumptions ih =>
    obtain ⟨one, others⟩ := List.forall_mem_cons.1 mentioned
    simp only [List.map_cons, suspensionRanges?, findSuspension?_mapLabels inj one,
      findResumedEnd?_mapLabels, ih others]

end Injective

/-- The recognizer gives the same answer for all names that the labels can have. -/
theorem stateMachine?_mapLabels {body : Body} {f : Label → Label}
    (inj : Set.InjOn f {label | label ∈ body.labels}) :
    stateMachine? (body.mapLabels f) = stateMachine? body := by
  simp only [stateMachine?, Matcher.start_mapLabels, Matcher.expectAll_mapLabels,
    Matcher.moveTo_mapLabels, Matcher.position?_mapLabels, Body.get?_mapLabels]
  refine Option.bind_congr fun switch position => ?_
  cases there : body.get? switch with
  | none => rfl
  | some node =>
    cases node with
    | tableSwitch min max cases otherwise =>
      have mentioned : ∀ label ∈ cases ++ [otherwise], label ∈ body.labels :=
        fun label mem => Body.mem_labels_of_get? there mem
      have placed := Body.labelIndex?_mapLabels inj (mentioned otherwise (by simp))
      have whole :
          (((Matcher.start body).expectAll prologue).expectAll resultCheck).body = body := by
        simp [Matcher.start]
      rw [← whole] at inj mentioned
      have scanned := suspensionRanges?_mapLabels inj fun label (mem : label ∈ cases.tail) =>
        mentioned label (List.mem_append_left _ (List.mem_of_mem_tail mem))
      simp only [Option.map_some, Insn.mapLabels, Option.bind_eq_bind, Option.bind_some,
        ← List.map_tail, scanned, placed]
    | _ => rfl

/-- The twin cases with a second place of a label and a branch to a label that has no place. -/
def strayed : Body := twins.insert 40 [.label ⟨1⟩, .jump .goto ⟨7⟩]

/-- Other numbers for up to eight labels. -/
def shuffle (label : Label) : Label := ⟨label.id * 3 % 8⟩

theorem stateMachine?_shuffle :
    Set.InjOn shuffle {label | label ∈ strayed.labels} ∧ strayed.mapLabels shuffle ≠ strayed ∧
      stateMachine? (strayed.mapLabels shuffle) =
        some [⟨34, 39⟩, ⟨4, 14⟩, ⟨15, 31⟩, ⟨16, 31⟩] := by
  have apart : ∀ a ∈ strayed.labels, ∀ b ∈ strayed.labels, shuffle a = shuffle b → a = b := by
    decide +kernel
  have inj : Set.InjOn shuffle {label | label ∈ strayed.labels} :=
    fun a mem b mem' => apart a mem b mem'
  have recognized : stateMachine? strayed = some [⟨34, 39⟩, ⟨4, 14⟩, ⟨15, 31⟩, ⟨16, 31⟩] := by
    decide +kernel
  exact ⟨inj, by decide +kernel, (stateMachine?_mapLabels inj).trans recognized⟩

end Coroutine

end BranchSieve
