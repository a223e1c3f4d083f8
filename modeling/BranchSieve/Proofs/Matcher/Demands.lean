import BranchSieve.Proofs.Matcher.Chain
import Mathlib.Data.List.Forall2
import Mathlib.Data.List.ReduceOption

/-!
# A chain as one condition

A matcher hands its bindings from one expectation to the next. What a whole chain asks for can be
said without that order: as many instructions as there are expectations lie ahead, each is admitted
by its expectation, and one table of slots extends the bindings and has the slot of each instruction
under the name that its expectation gives it. The bindings behind the chain are those in front of it
with these names.
-/

namespace BranchSieve

theorem Bindings.exists_bind?_iff {bindings : Bindings} {name : String} {slot : UInt16} :
    (∃ after, bindings.bind? name slot = some after) ↔
      ∀ bound, bindings.lookup name = some bound → bound = slot := by
  unfold bind?
  cases bindings.lookup name with
  | none => simp
  | some bound => simp

/-- Binding a name adds the name with its slot and nothing else. -/
theorem Bindings.lookup_of_bind? {bindings after : Bindings} {name : String} {slot : UInt16}
    (bound : bindings.bind? name slot = some after) (other : String) (value : UInt16) :
    after.lookup other = some value ↔
      bindings.lookup other = some value ∨ (name, slot) = (other, value) := by
  unfold bind? at bound
  rw [Prod.mk.injEq]
  split at bound
  · next unbound =>
    obtain rfl := Option.some.inj bound
    by_cases same : name = other
    · subst same
      simp [List.lookup_cons_self, unbound]
    · have differs : (other == name) = false := beq_false_of_ne (Ne.symm same)
      simp [List.lookup_cons, differs, same]
  · next known found =>
    obtain ⟨rfl, equal⟩ := Option.ite_none_right_eq_some.1 bound
    obtain rfl := Option.some.inj equal
    constructor
    · exact .inl
    · rintro (there | ⟨rfl, rfl⟩)
      · exact there
      · exact found

namespace Expectation

/-- The slots that a chain names, in the order of its instructions. -/
def slots (expectations : List Expectation) (nodes : List Node) : List (String × UInt16) :=
  (expectations.zipWith binding? nodes).reduceOption

/-- Nodes meet a chain: each is admitted by its expectation, and one table extends the bindings and
    has the slot of each name in the chain. -/
structure MetBy (expectations : List Expectation) (bindings : Bindings) (nodes : List Node) :
    Prop where
  admitted :
    List.Forall₂ (fun expectation node => expectation.admits node = true) expectations nodes
  consistent : ∃ table : String → Option UInt16,
    (∀ name slot, bindings.lookup name = some slot → table name = some slot) ∧
      ∀ name slot, (name, slot) ∈ slots expectations nodes → table name = some slot

variable {expectation : Expectation} {expectations rest : List Expectation}
  {bindings after : Bindings} {node : Node} {nodes : List Node}

theorem mem_slots_cons {name : String} {slot : UInt16} :
    (name, slot) ∈ slots (expectation :: rest) (node :: nodes) ↔
      expectation.binding? node = some (name, slot) ∨ (name, slot) ∈ slots rest nodes := by
  rw [slots, List.reduceOption_mem_iff, List.zipWith_cons_cons, List.mem_cons,
    ← List.reduceOption_mem_iff, eq_comm, slots]

/-- A node meets an expectation that admits it, unless the name of its slot has another one. -/
theorem exists_meet?_iff :
    (∃ after, expectation.meet? bindings node = some after) ↔
      expectation.admits node = true ∧ ∀ name slot, expectation.binding? node = some (name, slot) →
        ∀ bound, bindings.lookup name = some bound → bound = slot := by
  unfold meet?
  cases expectation.admits node with
  | false => simp
  | true =>
    cases binding : expectation.binding? node with
    | none => simp
    | some named =>
      obtain ⟨name, slot⟩ := named
      simp only [if_true, true_and, Option.some.injEq, Prod.mk.injEq, Bindings.exists_bind?_iff]
      constructor
      · rintro consistent _ _ ⟨rfl, rfl⟩
        exact consistent
      · exact fun consistent => consistent name slot ⟨rfl, rfl⟩

/-- Meeting an expectation binds its name and nothing else. -/
theorem lookup_of_meet? (met : expectation.meet? bindings node = some after) (name : String)
    (slot : UInt16) :
    after.lookup name = some slot ↔
      bindings.lookup name = some slot ∨ expectation.binding? node = some (name, slot) := by
  obtain ⟨-, met⟩ := Option.ite_none_right_eq_some.1 met
  split at met
  · next bound binding =>
    rw [Bindings.lookup_of_bind? met, binding, Option.some.injEq]
  · next unnamed =>
    obtain rfl := Option.some.inj met
    simp [unnamed]

/-- Behind a chain the names of the chain are bound and nothing else. -/
theorem lookup_of_meetAll? (met : meetAll? expectations bindings nodes = some after) (name : String)
    (slot : UInt16) :
    after.lookup name = some slot ↔
      bindings.lookup name = some slot ∨ (name, slot) ∈ slots expectations nodes := by
  induction expectations generalizing bindings nodes with
  | nil =>
    obtain ⟨rfl, rfl⟩ := meetAll?_nil.1 met
    simp [slots]
  | cons expectation rest ih =>
    obtain ⟨node, others, between, rfl, first, met⟩ := meetAll?_cons.1 met
    rw [ih met, lookup_of_meet? first, mem_slots_cons, or_assoc]

theorem admitted_of_meetAll? (met : meetAll? expectations bindings nodes = some after) :
    List.Forall₂ (fun expectation node => expectation.admits node = true) expectations nodes := by
  induction expectations generalizing bindings nodes with
  | nil =>
    obtain ⟨rfl, -⟩ := meetAll?_nil.1 met
    exact .nil
  | cons expectation rest ih =>
    obtain ⟨node, others, between, rfl, first, met⟩ := meetAll?_cons.1 met
    exact .cons (exists_meet?_iff.1 ⟨between, first⟩).1 (ih met)

/-- A table that extends the bindings and knows the slots of a chain extends whatever the chain
    binds on its way. -/
theorem exists_meetAll?_of_metBy (met : MetBy expectations bindings nodes) :
    ∃ after, meetAll? expectations bindings nodes = some after := by
  obtain ⟨admitted, table, known, named⟩ := met
  induction admitted generalizing bindings with
  | nil => exact ⟨bindings, rfl⟩
  | @cons expectation node rest nodes admits _ ih =>
    obtain ⟨between, first⟩ : ∃ between, expectation.meet? bindings node = some between := by
      refine exists_meet?_iff.2 ⟨admits, fun name slot binding bound found => ?_⟩
      have here := named name slot (mem_slots_cons.2 (.inl binding))
      exact Option.some.inj ((known name bound found).symm.trans here)
    have knownBetween : ∀ name slot, between.lookup name = some slot → table name = some slot := by
      intro name slot found
      rcases (lookup_of_meet? first name slot).1 found with before | binding
      · exact known name slot before
      · exact named name slot (mem_slots_cons.2 (.inl binding))
    obtain ⟨after, others⟩ :=
      ih knownBetween fun name slot mem => named name slot (mem_slots_cons.2 (.inr mem))
    exact ⟨after, meetAll?_cons.2 ⟨node, nodes, between, rfl, first, others⟩⟩

/-- Handing the bindings on from node to node comes to one condition on all of them. -/
theorem exists_meetAll?_iff :
    (∃ after, meetAll? expectations bindings nodes = some after) ↔
      MetBy expectations bindings nodes := by
  constructor
  · rintro ⟨after, met⟩
    refine ⟨admitted_of_meetAll? met, fun name => after.lookup name, ?_, ?_⟩
    · exact fun name slot found => (lookup_of_meetAll? met name slot).2 (.inl found)
    · exact fun name slot mem => (lookup_of_meetAll? met name slot).2 (.inr mem)
  · exact exists_meetAll?_of_metBy

end Expectation

namespace Matcher

open Expectation (meetAll? MetBy slots)

variable {m : Matcher}

/-- The nodes of the next instructions, as many as there are expectations if there are so many. -/
def nextNodes (m : Matcher) (expectations : List Expectation) : List Node :=
  (m.ahead.take expectations.length).map Prod.fst

/-- The instructions that meet a chain are the next ones. -/
theorem nextNodes_of_meetAll? {expectations : List Expectation} {passed rest : List (Node × Nat)}
    {after : Bindings} (ahead : m.ahead = passed ++ rest)
    (met : meetAll? expectations m.bindings (passed.map Prod.fst) = some after) :
    m.ahead.take expectations.length = passed := by
  have length := Expectation.length_eq_of_meetAll? met
  rw [List.length_map] at length
  rw [ahead, length, List.take_left]

/-- A matcher that is still matching behind a chain has passed nodes that meet it. -/
theorem metBy_of_cursor_ne {chain : List Expectation}
    (still : (m.expectAll chain).cursor ≠ .noMatch) :
    MetBy chain m.bindings (m.nextNodes chain) := by
  obtain ⟨passed, rest, after, ahead, met⟩ := exists_meetAll?_of_cursor_ne still
  rw [nextNodes, nextNodes_of_meetAll? ahead met]
  exact Expectation.exists_meetAll?_iff.1 ⟨after, met⟩

/-- A chain that the next nodes meet ends on the last of them. -/
theorem exists_expectAll_eq_of_metBy {first : Expectation} {rest : List Expectation}
    (metBy : MetBy (first :: rest) m.bindings (m.nextNodes (first :: rest))) :
    ∃ place after, (m.ahead.map Prod.snd)[rest.length]? = some place ∧
      m.expectAll (first :: rest) = ⟨m.body, .on place, after⟩ ∧
      meetAll? (first :: rest) m.bindings (m.nextNodes (first :: rest)) = some after := by
  obtain ⟨after, met⟩ := Expectation.exists_meetAll?_iff.2 metBy
  have enough : rest.length < m.ahead.length := by
    have length := Expectation.length_eq_of_meetAll? met
    simp only [nextNodes, List.length_map, List.length_take, List.length_cons] at length
    omega
  have last : (m.ahead.take (first :: rest).length).getLast? = some m.ahead[rest.length] := by
    rw [List.getLast?_take]
    simp [enough]
  refine ⟨m.ahead[rest.length].2, after, by simp [enough], ?_, met⟩
  have split :
      m.ahead = m.ahead.take (first :: rest).length ++ m.ahead.drop (first :: rest).length :=
    (List.take_append_drop _ _).symm
  rw [expectAll_of_meetAll? split met, cursorBehind, last]

/-- A chain is passed exactly if the next instructions meet it, all of them at once. Then the
    matcher is on the last of them, and the names of the chain are bound besides those that were;
    otherwise there is no match. -/
theorem isMatch_expectAll_iff_metBy (m : Matcher) (first : Expectation) (rest : List Expectation) :
    let chain := first :: rest
    ((m.expectAll chain).isMatch = true ↔ MetBy chain m.bindings (m.nextNodes chain)) ∧
      (MetBy chain m.bindings (m.nextNodes chain) →
        (∃ place, (m.ahead.map Prod.snd)[rest.length]? = some place ∧
          (m.expectAll chain).cursor = .on place) ∧
        ∀ name slot, (m.expectAll chain).bindings.lookup name = some slot ↔
          m.bindings.lookup name = some slot ∨ (name, slot) ∈ slots chain (m.nextNodes chain)) ∧
      (¬ MetBy chain m.bindings (m.nextNodes chain) → (m.expectAll chain).cursor = .noMatch) := by
  intro chain
  have still : (m.expectAll chain).isMatch = true ↔ (m.expectAll chain).cursor ≠ .noMatch := by
    simp [isMatch]
  refine ⟨⟨fun matched => metBy_of_cursor_ne (still.1 matched), fun metBy => ?_⟩, fun metBy => ?_,
    fun missed => ?_⟩
  · obtain ⟨place, after, -, arrived, -⟩ := exists_expectAll_eq_of_metBy metBy
    rw [still, arrived]
    simp
  · obtain ⟨place, after, there, arrived, met⟩ := exists_expectAll_eq_of_metBy metBy
    refine ⟨⟨place, there, by rw [arrived]⟩, fun name slot => ?_⟩
    rw [arrived]
    exact Expectation.lookup_of_meetAll? met name slot
  · exact not_not.1 fun matched => missed (metBy_of_cursor_ne matched)

end Matcher

end BranchSieve
