import BranchSieve.Bytecode.Body
import BranchSieve.Expectation

/-!
# Matching instructions

A matcher walks over the opcodes of a body and checks each against an expectation; markers are
passed over. An expectation that is not met leaves the matcher without a match and with the bindings
that it had, and so it stays until it is moved to an index.
-/

namespace BranchSieve

/-- The place of a matcher. -/
inductive Cursor where
  /-- Nothing has been matched; the search starts at the index itself. -/
  | before (index : Nat)
  /-- The last matched node; the search starts behind it. -/
  | on (index : Nat)
  /-- There is no match. -/
  | noMatch
  deriving DecidableEq, Repr

/-- A place in a body with the bindings made on the way to it. -/
structure Matcher where
  body : Body
  cursor : Cursor
  bindings : Bindings
  deriving DecidableEq, Repr

namespace Matcher

/-- The matcher in front of a body. -/
def start (body : Body) : Matcher := ⟨body, .before 0, []⟩

/-- The matcher on the node at an index, with the bindings so far. There is no match beyond the
    end. -/
def moveTo (m : Matcher) (index : Nat) : Matcher :=
  { m with cursor := if index < m.body.size then .on index else .noMatch }

/-- The index of the last matched node. -/
def position? (m : Matcher) : Option Nat :=
  match m.cursor with
  | .on index => some index
  | _ => none

/-- The last matched node. -/
def node? (m : Matcher) : Option Node := m.position?.bind m.body.get?

/-- Has every expectation been met? -/
def isMatch (m : Matcher) : Bool := m.cursor ≠ .noMatch

/-- The index of the next node with an opcode. -/
def upcoming? (m : Matcher) : Option Nat :=
  match m.cursor with
  | .before index => m.body.skipMarkers? index
  | .on index => m.body.nextOpcode? index
  | .noMatch => none

/-- The place and the bindings after the next node with an opcode has met an expectation. -/
def meet? (m : Matcher) (expectation : Expectation) : Option (Nat × Bindings) := do
  let index ← m.upcoming?
  let node ← m.body.get? index
  let bindings ← expectation.meet? m.bindings node
  return (index, bindings)

/-- The matcher on the next node with an opcode if that meets the expectation, and without a match
    if not. -/
def expect (m : Matcher) (expectation : Expectation) : Matcher :=
  match m.meet? expectation with
  | some (index, bindings) => { m with cursor := .on index, bindings }
  | none => { m with cursor := .noMatch }

/-- The matcher after a chain of expectations. -/
def expectAll (m : Matcher) (expectations : List Expectation) : Matcher :=
  expectations.foldl expect m

@[simp]
theorem body_expect (m : Matcher) (expectation : Expectation) :
    (m.expect expectation).body = m.body := by
  unfold expect
  split <;> rfl

@[simp]
theorem body_expectAll (m : Matcher) (expectations : List Expectation) :
    (m.expectAll expectations).body = m.body := by
  induction expectations generalizing m with
  | nil => rfl
  | cons expectation rest ih => simpa [expectAll] using ih (m.expect expectation)

/-- A matcher without a match finds none by going on. -/
theorem cursor_expect_of_noMatch {m : Matcher} (h : m.cursor = .noMatch)
    (expectation : Expectation) : (m.expect expectation).cursor = .noMatch := by
  simp [expect, meet?, upcoming?, h]

/-- An expectation that is not met leaves the bindings as they were. -/
theorem bindings_expect_of_noMatch {m : Matcher} {expectation : Expectation}
    (h : (m.expect expectation).cursor = .noMatch) :
    (m.expect expectation).bindings = m.bindings := by
  unfold expect at h ⊢
  split at h
  · simp at h
  · rfl

end Matcher

end BranchSieve
