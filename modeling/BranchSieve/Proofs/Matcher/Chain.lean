import BranchSieve.Matcher
import BranchSieve.Proofs.Bytecode.Instructions
import Mathlib.Tactic.Tauto

/-!
# Chains of expectations

A matcher that has to meet a list of expectations looks at the instructions ahead of it and at
nothing else. `Expectation.meetAll?` says when nodes meet expectations one by one, with the bindings
handed on. A chain ends on an instruction exactly if the instructions up to it meet the chain.
-/

namespace BranchSieve

namespace Expectation

/-- The bindings after as many nodes as there are expectations have met them in their order. -/
def meetAll? : List Expectation → Bindings → List Node → Option Bindings
  | [], bindings, [] => some bindings
  | expectation :: rest, bindings, node :: nodes =>
    (expectation.meet? bindings node).bind fun bindings => meetAll? rest bindings nodes
  | _, _, _ => none

theorem meetAll?_nil {bindings after : Bindings} {nodes : List Node} :
    meetAll? [] bindings nodes = some after ↔ nodes = [] ∧ bindings = after := by
  cases nodes with
  | nil => simp [meetAll?]
  | cons node nodes => simp [meetAll?]

theorem meetAll?_cons {expectation : Expectation} {rest : List Expectation}
    {bindings after : Bindings} {nodes : List Node} :
    meetAll? (expectation :: rest) bindings nodes = some after ↔
      ∃ node others between, nodes = node :: others ∧
        expectation.meet? bindings node = some between ∧
        meetAll? rest between others = some after := by
  cases nodes with
  | nil => simp [meetAll?]
  | cons node nodes =>
    rw [meetAll?, Option.bind_eq_some_iff]
    constructor
    · intro h
      rcases h with ⟨between, met, others⟩
      exact ⟨node, nodes, between, rfl, met, others⟩
    · intro h
      rcases h with ⟨_, _, between, same, met, others⟩
      obtain ⟨rfl, rfl⟩ := List.cons.inj same
      exact ⟨between, met, others⟩

theorem meetAll?_append {front back : List Expectation} {bindings after : Bindings}
    {nodes : List Node} :
    meetAll? (front ++ back) bindings nodes = some after ↔
      ∃ first second between, nodes = first ++ second ∧
        meetAll? front bindings first = some between ∧
        meetAll? back between second = some after := by
  induction front generalizing bindings nodes with
  | nil => simp [meetAll?_nil]
  | cons expectation front ih =>
    rw [List.cons_append, meetAll?_cons]
    constructor
    · intro h
      rcases h with ⟨node, others, between, rfl, met, rest⟩
      obtain ⟨first, second, middle, rfl, one, two⟩ := ih.1 rest
      exact ⟨node :: first, second, middle, rfl,
        meetAll?_cons.2 ⟨node, first, between, rfl, met, one⟩, two⟩
    · intro h
      rcases h with ⟨first, second, middle, rfl, one, two⟩
      obtain ⟨node, others, between, rfl, met, rest⟩ := meetAll?_cons.1 one
      exact ⟨node, others ++ second, between, rfl, met,
        ih.2 ⟨others, second, middle, rfl, rest, two⟩⟩

/-! What the kinds of expectations ask of a node. -/

theorem meet?_opcode {op : Opcode} {bindings after : Bindings} {node : Node} :
    (opcode op).meet? bindings node = some after ↔
      node.opcode? = some op ∧ bindings = after := by
  simp [meet?, admits, binding?]

theorem meet?_var {op : Opcode} {name : String} {bindings after : Bindings} {node : Node} :
    (var op name).meet? bindings node = some after ↔
      ∃ slot, node = .var op slot ∧ bindings.bind? name slot = some after := by
  cases node <;> simp [meet?, admits, binding?]
  tauto

theorem meet?_type {op : Opcode} {descriptor : String} {bindings after : Bindings} {node : Node} :
    (type op descriptor).meet? bindings node = some after ↔
      node = .type op descriptor ∧ bindings = after := by
  cases node <;> simp [meet?, admits, binding?]
  tauto

theorem meet?_invokeStatic {owner name : String} {bindings after : Bindings} {node : Node} :
    (invokeStatic owner name).meet? bindings node = some after ↔
      (∃ descriptor, node = .method .invokestatic owner name descriptor) ∧ bindings = after := by
  cases node <;> simp [meet?, admits, binding?]
  tauto

theorem meet?_invokeSuper {owner descriptor : String} {bindings after : Bindings} {node : Node} :
    (invokeSuper owner descriptor).meet? bindings node = some after ↔
      node = .method .invokespecial owner "<init>" descriptor ∧ bindings = after := by
  cases node <;> simp [meet?, admits, binding?]
  tauto

theorem meet?_ldcString {text : String} {bindings after : Bindings} {node : Node} :
    (ldcString text).meet? bindings node = some after ↔
      node = .ldc (.string text) ∧ bindings = after := by
  cases node with
  | ldc constant =>
    cases constant <;> simp [meet?, admits, binding?]
    tauto
  | _ => simp [meet?, admits]

theorem length_eq_of_meetAll? {expectations : List Expectation} {bindings after : Bindings}
    {nodes : List Node} (h : meetAll? expectations bindings nodes = some after) :
    expectations.length = nodes.length := by
  induction expectations generalizing bindings nodes with
  | nil =>
    cases nodes with
    | nil => rfl
    | cons node nodes => simp [meetAll?] at h
  | cons expectation rest ih =>
    cases nodes with
    | nil => simp [meetAll?] at h
    | cons node nodes =>
      obtain ⟨between, -, met⟩ := Option.bind_eq_some_iff.1 h
      rw [List.length_cons, List.length_cons, ih met]

end Expectation

namespace Matcher

open Expectation (meetAll?)

/-- The instructions that a matcher has not passed. -/
def ahead (m : Matcher) : List (Node × Nat) :=
  match m.cursor with
  | .before index => m.body.instructionsFrom index
  | .on index => m.body.instructionsFrom (index + 1)
  | .noMatch => []

variable {m : Matcher}

theorem upcoming?_eq_head? (m : Matcher) : m.upcoming? = m.ahead.head?.map Prod.snd := by
  cases cursor : m.cursor with
  | before index => simp [upcoming?, ahead, cursor, Body.skipMarkers?_eq_head?]
  | on index => simp [upcoming?, ahead, cursor, Body.nextOpcode?_eq_head?]
  | noMatch => simp [upcoming?, ahead, cursor]

@[simp]
theorem body_moveTo (m : Matcher) (index : Nat) : (m.moveTo index).body = m.body := rfl

@[simp]
theorem bindings_moveTo (m : Matcher) (index : Nat) : (m.moveTo index).bindings = m.bindings := rfl

theorem ahead_moveTo (m : Matcher) (index : Nat) :
    (m.moveTo index).ahead = m.body.instructionsFrom (index + 1) := by
  by_cases inside : index < m.body.size
  · simp [moveTo, ahead, inside]
  · rw [Body.instructionsFrom_of_size_le (Nat.le_succ_of_le (Nat.not_lt.1 inside))]
    simp [moveTo, ahead, inside]

/-- What lies behind an instruction ahead is known from its index. -/
theorem eq_instructionsFrom_of_ahead (front : List (Node × Nat)) {rest : List (Node × Nat)}
    {node : Node} {place : Nat} (h : m.ahead = front ++ (node, place) :: rest) :
    rest = m.body.instructionsFrom (place + 1) := by
  unfold ahead at h
  split at h
  · exact Body.eq_instructionsFrom_of_append front h
  · exact Body.eq_instructionsFrom_of_append front h
  · simp at h

theorem get?_of_ahead (front : List (Node × Nat)) {rest : List (Node × Nat)} {node : Node}
    {place : Nat} (h : m.ahead = front ++ (node, place) :: rest) :
    m.body.get? place = some node := by
  have mem : (node, place) ∈ m.ahead := by simp [h]
  unfold ahead at mem
  split at mem
  · exact (Body.mem_instructionsFrom.1 mem).2.1
  · exact (Body.mem_instructionsFrom.1 mem).2.1
  · simp at mem

theorem expect_of_ahead_nil (h : m.ahead = []) (expectation : Expectation) :
    m.expect expectation = { m with cursor := .noMatch } := by
  simp [expect, meet?, upcoming?_eq_head?, h]

theorem expect_of_ahead_cons {node : Node} {place : Nat} {rest : List (Node × Nat)}
    (h : m.ahead = (node, place) :: rest) (expectation : Expectation) :
    m.expect expectation =
      match expectation.meet? m.bindings node with
      | some bindings => ⟨m.body, .on place, bindings⟩
      | none => { m with cursor := .noMatch } := by
  have found : m.body.get? place = some node := get?_of_ahead [] h
  cases met : expectation.meet? m.bindings node <;>
    simp [expect, meet?, upcoming?_eq_head?, h, found, met]

theorem expectAll_cons (m : Matcher) (expectation : Expectation) (rest : List Expectation) :
    m.expectAll (expectation :: rest) = (m.expect expectation).expectAll rest := rfl

theorem cursor_expectAll_of_noMatch (h : m.cursor = .noMatch) (expectations : List Expectation) :
    (m.expectAll expectations).cursor = .noMatch := by
  induction expectations generalizing m with
  | nil => exact h
  | cons expectation rest ih => exact ih (cursor_expect_of_noMatch h expectation)

/-- The cursor of a matcher after it has passed some instructions. -/
def cursorBehind (m : Matcher) (passed : List (Node × Nat)) : Cursor :=
  match passed.getLast? with
  | some (_, place) => .on place
  | none => m.cursor

/-- A matcher passes the instructions ahead that meet its expectations. -/
theorem expectAll_of_meetAll? {expectations : List Expectation} {passed rest : List (Node × Nat)}
    {bindings : Bindings} (ahead : m.ahead = passed ++ rest)
    (met : meetAll? expectations m.bindings (passed.map Prod.fst) = some bindings) :
    m.expectAll expectations = ⟨m.body, m.cursorBehind passed, bindings⟩ := by
  induction expectations generalizing m passed with
  | nil =>
    cases passed with
    | nil =>
      simp only [List.map_nil, meetAll?, Option.some.injEq] at met
      subst met
      rfl
    | cons first passed => simp [meetAll?] at met
  | cons expectation expectations ih =>
    cases passed with
    | nil => simp [meetAll?] at met
    | cons first passed =>
      obtain ⟨node, place⟩ := first
      obtain ⟨between, one, others⟩ := Option.bind_eq_some_iff.1 met
      have stepped : m.expect expectation = ⟨m.body, .on place, between⟩ := by
        rw [expect_of_ahead_cons ahead, one]
      have behind : (m.expect expectation).ahead = passed ++ rest := by
        rw [stepped]
        exact (eq_instructionsFrom_of_ahead [] ahead).symm
      rw [expectAll_cons, ih behind (by rw [stepped]; exact others), stepped]
      cases passed <;> simp [cursorBehind, List.getLast?_cons]

/-- A matcher that still matches after its expectations has passed instructions that meet them. -/
theorem exists_meetAll?_of_cursor_ne {expectations : List Expectation}
    (h : (m.expectAll expectations).cursor ≠ .noMatch) :
    ∃ passed rest bindings, m.ahead = passed ++ rest ∧
      meetAll? expectations m.bindings (passed.map Prod.fst) = some bindings := by
  induction expectations generalizing m with
  | nil => exact ⟨[], m.ahead, m.bindings, rfl, rfl⟩
  | cons expectation expectations ih =>
    cases ahead : m.ahead with
    | nil =>
      refine absurd (cursor_expectAll_of_noMatch ?_ expectations) h
      rw [expect_of_ahead_nil ahead]
    | cons first others =>
      obtain ⟨node, place⟩ := first
      cases one : expectation.meet? m.bindings node with
      | none =>
        refine absurd (cursor_expectAll_of_noMatch ?_ expectations) h
        rw [expect_of_ahead_cons ahead, one]
      | some between =>
        have stepped : m.expect expectation = ⟨m.body, .on place, between⟩ := by
          rw [expect_of_ahead_cons ahead, one]
        obtain ⟨passed, rest, bindings, split, met⟩ := ih h
        rw [stepped] at split met
        have behind : others = passed ++ rest :=
          (eq_instructionsFrom_of_ahead [] ahead).trans split
        refine ⟨(node, place) :: passed, rest, bindings, by rw [behind, List.cons_append], ?_⟩
        simp only [List.map_cons, meetAll?, one, Option.bind_some]
        exact met

/-- A chain ends on an instruction exactly if the instructions up to there meet it. -/
theorem expectAll_eq_on_iff {expectations : List Expectation} (nonempty : expectations ≠ [])
    {place : Nat} {bindings : Bindings} :
    m.expectAll expectations = ⟨m.body, .on place, bindings⟩ ↔
      ∃ front node rest, m.ahead = front ++ (node, place) :: rest ∧
        meetAll? expectations m.bindings (front.map Prod.fst ++ [node]) = some bindings := by
  constructor
  · intro ended
    have matches_still : (m.expectAll expectations).cursor ≠ .noMatch := by simp [ended]
    obtain ⟨passed, rest, after, ahead, met⟩ := exists_meetAll?_of_cursor_ne matches_still
    have arrived := (expectAll_of_meetAll? ahead met).symm.trans ended
    simp only [Matcher.mk.injEq, true_and] at arrived
    obtain ⟨cursor, rfl⟩ := arrived
    rcases List.eq_nil_or_concat passed with rfl | ⟨front, ⟨node, last⟩, rfl⟩
    · exact absurd (List.length_eq_zero_iff.1 (Expectation.length_eq_of_meetAll? met)) nonempty
    · simp only [cursorBehind, List.concat_eq_append, List.getLast?_append, List.getLast?_singleton,
        Option.some_or, Cursor.on.injEq] at cursor
      subst cursor
      exact ⟨front, node, rest, by simpa using ahead, by simpa using met⟩
  · intro h
    rcases h with ⟨front, node, rest, ahead, met⟩
    have passed : m.ahead = (front ++ [(node, place)]) ++ rest := by simpa using ahead
    rw [expectAll_of_meetAll? passed (by simpa using met)]
    simp [cursorBehind]

theorem position?_eq_some_iff {place : Nat} : m.position? = some place ↔ m.cursor = .on place := by
  unfold position?
  split
  · next index on => simp [on]
  · next other => exact ⟨by simp, fun on => absurd on (other place)⟩

/-- A chain that has a last matched node is on it. -/
theorem expectAll_eq_on_of_position? {expectations : List Expectation} {place : Nat}
    (h : (m.expectAll expectations).position? = some place) :
    m.expectAll expectations = ⟨m.body, .on place, (m.expectAll expectations).bindings⟩ := by
  rw [← position?_eq_some_iff.1 h, ← body_expectAll m expectations]

/-- A chain has a last matched node exactly if the instructions up to there meet it. -/
theorem position?_expectAll_eq_some_iff {expectations : List Expectation}
    (nonempty : expectations ≠ []) {place : Nat} :
    (m.expectAll expectations).position? = some place ↔
      ∃ front node rest bindings, m.ahead = front ++ (node, place) :: rest ∧
        meetAll? expectations m.bindings (front.map Prod.fst ++ [node]) = some bindings := by
  constructor
  · intro position
    obtain ⟨front, node, rest, ahead, met⟩ :=
      (expectAll_eq_on_iff nonempty).1 (expectAll_eq_on_of_position? position)
    exact ⟨front, node, rest, _, ahead, met⟩
  · intro h
    rcases h with ⟨front, node, rest, bindings, ahead, met⟩
    rw [(expectAll_eq_on_iff nonempty).2 ⟨front, node, rest, ahead, met⟩]
    rfl

end Matcher

end BranchSieve
