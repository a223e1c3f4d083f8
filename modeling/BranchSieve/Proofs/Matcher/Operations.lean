import BranchSieve.Proofs.Matcher.Demands

/-!
# Runs of a matcher

A matcher is used by expecting instructions and by moving it to an index, in any order. An
expectation that is not met leaves the bindings as they were, although the table may be written
while the node is checked: a name is written only where it had no slot, and then the slot is the one
that is asked for. So what is bound stays bound over a whole run, and a failed attempt shows in
nothing but the cursor.
-/

namespace BranchSieve

/-- The slot of a name and the table in which it has one: the given slot, if it had none. -/
def Bindings.entry (table : Bindings) (name : String) (slot : UInt16) : UInt16 × Bindings :=
  match table.lookup name with
  | some bound => (bound, table)
  | none => (slot, (name, slot) :: table)

/-- The check of a node that writes the table first and decides then. -/
def Expectation.accept (expectation : Expectation) (node : Node) (table : Bindings) :
    Bool × Bindings :=
  match expectation, node with
  | .var op name, .var op' slot =>
    if op = op' then
      let (bound, table) := table.entry name slot
      (bound = slot, table)
    else (false, table)
  | expectation, node => (expectation.admits node, table)

namespace Matcher

/-- The matcher on the next node with an opcode if the check accepts it, and without a match if not.
    The bindings are those that the check leaves, whatever it decides. -/
def advance (m : Matcher) (check : Node → Bindings → Bool × Bindings) : Matcher :=
  match m.upcoming? with
  | some index =>
    match m.body.get? index with
    | some node =>
      let (accepted, bindings) := check node m.bindings
      { m with cursor := if accepted then .on index else .noMatch, bindings }
    | none => { m with cursor := .noMatch }
  | none => { m with cursor := .noMatch }

/-- What is done with a matcher. -/
inductive Operation where
  | expect (expectation : Expectation)
  | moveTo (index : Nat)
  deriving DecidableEq, Repr

/-- The matcher after an operation. -/
def Operation.apply (m : Matcher) : Operation → Matcher
  | .expect expectation => m.expect expectation
  | .moveTo index => m.moveTo index

/-- The matcher after some operations. -/
def run (m : Matcher) (operations : List Operation) : Matcher :=
  operations.foldl Operation.apply m

/-- The index is one that the matcher has not passed. -/
def IsAhead (m : Matcher) (index : Nat) : Prop :=
  match m.cursor with
  | .before first => first ≤ index
  | .on last => last < index
  | .noMatch => False

/-- The index is that of the next node with an opcode: only markers stand in front of it. -/
structure IsUpcoming (m : Matcher) (index : Nat) : Prop where
  ahead : m.IsAhead index
  hasOpcode : m.body.HasOpcode index
  markers : ∀ between, m.IsAhead between → between < index →
    ∃ node, m.body.get? between = some node ∧ node.isMarker = true

variable {m : Matcher} {expectation : Expectation} {operation : Operation}
  {operations : List Operation} {name : String} {slot : UInt16} {index : Nat}

/-! ## The check of a node -/

/-- A check that refuses the node has written nothing. -/
theorem accept_eq (expectation : Expectation) (node : Node) (table : Bindings) :
    expectation.accept node table =
      match expectation.meet? table node with
      | some bindings => (true, bindings)
      | none => (false, table) := by
  unfold Expectation.accept Expectation.meet?
  split
  · next op name op' slot =>
    by_cases same : op = op'
    · cases bound : table.lookup name with
      | none =>
        simp [Expectation.admits, Expectation.binding?, Bindings.entry, Bindings.bind?, same, bound]
      | some known =>
        -- The name has a slot, so the entry writes nothing whether or not the slots agree.
        by_cases equal : known = slot <;>
          simp [Expectation.admits, Expectation.binding?, Bindings.entry, Bindings.bind?, same,
            bound, equal]
    · simp [Expectation.admits, same]
  · next other =>
    have unnamed : expectation.binding? node = none := by
      unfold Expectation.binding?
      split
      · exact absurd rfl (other _ _ _ _ rfl)
      · rfl
    rw [unnamed]
    cases expectation.admits node with
    | true => rfl
    | false => rfl

/-- An expectation is met by a matcher that writes its table while it checks the node. -/
theorem advance_accept (m : Matcher) (expectation : Expectation) :
    m.advance expectation.accept = m.expect expectation := by
  unfold advance expect meet?
  cases m.upcoming? with
  | none => rfl
  | some index =>
    cases found : m.body.get? index with
    | none => simp [found]
    | some node => cases met : expectation.meet? m.bindings node <;> simp [found, met, accept_eq]

/-! ## One expectation -/

theorem exists_of_expect (matched : (m.expect expectation).cursor ≠ .noMatch) :
    ∃ index node bindings, m.upcoming? = some index ∧ m.body.get? index = some node ∧
      expectation.meet? m.bindings node = some bindings ∧
      m.expect expectation = ⟨m.body, .on index, bindings⟩ := by
  unfold expect at matched ⊢
  cases met : m.meet? expectation with
  | none =>
    rw [met] at matched
    exact absurd rfl matched
  | some found =>
    obtain ⟨index, bindings⟩ := found
    obtain ⟨_, upcoming, rest⟩ := Option.bind_eq_some_iff.1 met
    obtain ⟨node, here, rest⟩ := Option.bind_eq_some_iff.1 rest
    obtain ⟨_, binds, same⟩ := Option.bind_eq_some_iff.1 rest
    obtain ⟨rfl, rfl⟩ := Prod.mk.inj (Option.some.inj same)
    exact ⟨_, node, _, upcoming, here, binds, rfl⟩

theorem isUpcoming_of_skipMarkers? {first : Nat} (ahead : ∀ place, m.IsAhead place ↔ first ≤ place)
    (found : m.body.skipMarkers? first = some index) : m.IsUpcoming index := by
  obtain ⟨le, hasOpcode, least⟩ := Body.hasOpcode_of_skipMarkers? found
  refine ⟨(ahead index).2 le, hasOpcode, fun between isAhead before => ?_⟩
  exact Body.isMarker_of_not_hasOpcode hasOpcode before
    (least between ((ahead between).1 isAhead) before)

theorem isUpcoming_of_upcoming? (found : m.upcoming? = some index) : m.IsUpcoming index := by
  cases cursor : m.cursor with
  | before first =>
    rw [upcoming?, cursor] at found
    exact isUpcoming_of_skipMarkers? (fun place => by rw [IsAhead, cursor]) found
  | on last =>
    rw [upcoming?, cursor] at found
    obtain ⟨next, isNext, found⟩ := Option.bind_eq_some_iff.1 found
    obtain ⟨-, rfl⟩ := Option.ite_none_right_eq_some.1 isNext |>.imp_right Option.some.inj
    exact isUpcoming_of_skipMarkers? (fun place => by rw [IsAhead, cursor]; rfl) found
  | noMatch =>
    rw [upcoming?, cursor] at found
    cases found

/-! ## Runs -/

@[simp]
theorem body_apply (m : Matcher) (operation : Operation) : (operation.apply m).body = m.body := by
  cases operation with
  | expect expectation => exact body_expect m expectation
  | moveTo index => rfl

@[simp]
theorem body_run (m : Matcher) (operations : List Operation) :
    (m.run operations).body = m.body := by
  induction operations generalizing m with
  | nil => rfl
  | cons operation rest ih => exact (ih (operation.apply m)).trans (body_apply m operation)

/-- One operation leaves a bound name its slot. -/
theorem lookup_apply (bound : m.bindings.lookup name = some slot) (operation : Operation) :
    (operation.apply m).bindings.lookup name = some slot := by
  cases operation with
  | moveTo index => exact bound
  | expect expectation =>
    by_cases failed : (m.expect expectation).cursor = .noMatch
    · rw [Operation.apply, bindings_expect_of_noMatch failed]
      exact bound
    · obtain ⟨index, node, bindings, -, -, met, moved⟩ := exists_of_expect failed
      rw [Operation.apply, moved]
      exact (Expectation.lookup_of_meet? met name slot).2 (.inl bound)

theorem lookup_run (bound : m.bindings.lookup name = some slot) (operations : List Operation) :
    (m.run operations).bindings.lookup name = some slot := by
  induction operations generalizing m with
  | nil => exact bound
  | cons operation rest ih => exact ih (lookup_apply bound operation)

/-- Only a move to an index of the body gives a lost match back. -/
theorem cursor_run_of_noMatch (lost : m.cursor = .noMatch)
    (outside : ∀ index, .moveTo index ∈ operations → m.body.size ≤ index) :
    (m.run operations).cursor = .noMatch := by
  induction operations generalizing m with
  | nil => exact lost
  | cons operation rest ih =>
    have lost' : (operation.apply m).cursor = .noMatch := by
      cases operation with
      | expect expectation => exact cursor_expect_of_noMatch lost expectation
      | moveTo index => exact if_neg (Nat.not_lt.2 (outside index List.mem_cons_self))
    refine ih lost' fun index mem => ?_
    rw [body_apply]
    exact outside index (List.mem_cons_of_mem _ mem)

/-- A matcher that is on a node is on one of the body. -/
def InBounds (m : Matcher) : Prop := ∀ index, m.cursor = .on index → index < m.body.size

/-- Whatever the matcher was on before, an operation leaves it on a node of the body if on any. -/
theorem inBounds_apply (m : Matcher) (operation : Operation) : (operation.apply m).InBounds := by
  intro index on
  rw [body_apply]
  cases operation with
  | expect expectation =>
    have matched : (m.expect expectation).cursor ≠ .noMatch := by
      rw [show (m.expect expectation).cursor = .on index from on]
      exact nofun
    obtain ⟨place, node, bindings, -, there, -, moved⟩ := exists_of_expect matched
    rw [Operation.apply, moved] at on
    obtain rfl := Cursor.on.inj on
    obtain ⟨inside, -⟩ := Array.getElem?_eq_some_iff.1 there
    exact inside
  | moveTo target =>
    by_cases inside : target < m.body.size
    · simp only [Operation.apply, moveTo, if_pos inside, Cursor.on.injEq] at on
      rwa [← on]
    · simp [Operation.apply, moveTo, inside] at on

theorem InBounds.run (inBounds : m.InBounds) (operations : List Operation) :
    (m.run operations).InBounds := by
  induction operations generalizing m with
  | nil => exact inBounds
  | cons operation rest ih => exact ih (inBounds_apply m operation)

/-- Behind any run from the start: a bound name keeps its slot; an expectation that is not met
    leaves the bindings as they were, also where the table is written while the node is checked, and
    is forgotten by the next move; a lost match stays lost until a move to an index of the body; the
    matcher is on a node of the body if on any; and an expectation that is met moves it to the next
    node with an opcode, with only markers between. -/
theorem run_spec (body : Body) (operations : List Operation) :
    let m := (start body).run operations
    (∀ name slot, m.bindings.lookup name = some slot →
      ∀ later, (m.run later).bindings.lookup name = some slot) ∧
    (∀ expectation, m.advance expectation.accept = m.expect expectation ∧
      ((m.expect expectation).cursor = .noMatch →
        (m.expect expectation).bindings = m.bindings ∧
          ∀ index, (m.expect expectation).moveTo index = m.moveTo index)) ∧
    (m.cursor = .noMatch →
      (∀ later, (∀ index, .moveTo index ∈ later → body.size ≤ index) →
        (m.run later).cursor = .noMatch) ∧
      ∀ index < body.size, (m.moveTo index).cursor = .on index) ∧
    (∀ index, m.cursor = .on index → index < body.size) ∧
    ∀ expectation, (m.expect expectation).cursor ≠ .noMatch →
      ∃ index, (m.expect expectation).cursor = .on index ∧ m.IsUpcoming index := by
  intro m
  have same : m.body = body := body_run (start body) operations
  refine ⟨fun name slot bound later => lookup_run bound later, fun expectation =>
    ⟨advance_accept m expectation,
      fun failed => ⟨bindings_expect_of_noMatch failed, fun index => ?_⟩⟩,
    fun lost => ⟨fun later outside => ?_, fun index inside => ?_⟩, fun index on => ?_,
    fun expectation matched => ?_⟩
  · rw [moveTo, moveTo, body_expect, bindings_expect_of_noMatch failed]
  · exact cursor_run_of_noMatch lost (by rwa [same])
  · exact if_pos (by rwa [same])
  · have start_inBounds : (start body).InBounds := fun _ on => by cases on
    rw [← same]
    exact start_inBounds.run operations index on
  · obtain ⟨index, node, bindings, upcoming, -, -, moved⟩ := exists_of_expect matched
    exact ⟨index, by rw [moved], isUpcoming_of_upcoming? upcoming⟩

/-- The store does not have the slot that the name got from the first load; the attempt is lost
    beyond a move behind the end, and the last load meets the name again behind the frame and the
    store. -/
theorem run_spec_store :
    let body : Body :=
      ⟨#[.label ⟨0⟩, .var .aload 1, .frame "SAME", .var .astore 2, .line 7 ⟨0⟩, .var .aload 1]⟩
    let bound := (start body).run [.expect (.var .aload "result")]
    let lost := bound.run [.expect (.var .astore "result")]
    let moved := bound.run [.expect (.var .astore "result"), .moveTo 3]
    bound.bindings.lookup "result" = some 1 ∧
      lost.cursor = .noMatch ∧ lost.bindings = bound.bindings ∧ lost.moveTo 3 = bound.moveTo 3 ∧
      (lost.run [.moveTo 6, .expect (.opcode .aload)]).cursor = .noMatch ∧
      moved.bindings.lookup "result" = some 1 ∧ moved.cursor = .on 3 ∧ 3 < body.size ∧
      (moved.expect (.var .aload "result")).cursor = .on 5 ∧ moved.IsUpcoming 5 := by
  intro body bound lost moved
  have named : bound.bindings.lookup "result" = some 1 := by decide +kernel
  have failed : lost.cursor = .noMatch := by decide +kernel
  have placed : moved.cursor = .on 3 := by decide +kernel
  have met : (moved.expect (.var .aload "result")).cursor = .on 5 := by decide +kernel
  obtain ⟨keeps, forgets, -, -, -⟩ := run_spec body [.expect (.var .aload "result")]
  obtain ⟨same, anew⟩ := (forgets (.var .astore "result")).2 failed
  obtain ⟨-, -, stays, -, -⟩ :=
    run_spec body [.expect (.var .aload "result"), .expect (.var .astore "result")]
  obtain ⟨-, -, -, inside, advances⟩ :=
    run_spec body [.expect (.var .aload "result"), .expect (.var .astore "result"), .moveTo 3]
  obtain ⟨index, on, upcoming⟩ := advances (.var .aload "result") (by decide +kernel)
  obtain rfl : index = 5 := Cursor.on.inj (on.symm.trans met)
  refine ⟨named, failed, same, anew 3, (stays failed).1 _ fun index mem => ?_,
    keeps "result" 1 named _, placed, inside 3 placed, met, upcoming⟩
  obtain rfl : index = 6 := by simpa using mem
  decide

end Matcher

end BranchSieve
