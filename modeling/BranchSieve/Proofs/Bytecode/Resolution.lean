import BranchSieve.Proofs.Bytecode.Labels
import Mathlib.Order.Bounds.Basic
import Mathlib.Order.Nat

/-!
# Where labels lead

A label is looked up at the least index that places it, and leads to the least index with an opcode
from there on; where there is no such index, nothing is found. It makes no difference how often a
label is placed, or how many markers stand in a row or at the end.

The look-ups can as well be made as a machine makes them: the places of all labels are gathered in
one pass over the nodes, in which a label that has a place keeps it, and the markers are skipped by
a loop whose index is a machine word. Each turn of the loop keeps what the search is to find and
brings its end nearer, so the loop ends, and with the same answer.
-/

namespace BranchSieve

namespace Body

/-- The indices with an opcode from an index on. -/
def opcodesFrom (body : Body) (index : Nat) : Set Nat :=
  {later | index ≤ later ∧ body.HasOpcode later}

/-- The indices that place a label. -/
def placesOf (body : Body) (label : Label) : Set Nat :=
  {place | body.get? place = some (.label label)}

/-- An index carries a marker if the node there is one. -/
def HasMarker (body : Body) (index : Nat) : Prop :=
  ∃ node, body.get? index = some node ∧ node.isMarker = true

/-- The index after another one, where `limit` is the last index that there is. -/
def checkedNext? (body : Body) (limit index : Nat) : Option Nat := do
  let next ← if index < limit then some (index + 1) else none
  if next < body.size then some next else none

end Body

instance : Hashable Label where
  hash label := hash label.id

/-- The table of places with the index of one more node. A label that has a place keeps it. -/
def recordPlace (table : Std.HashMap Label Nat) (entry : Node × Nat) : Std.HashMap Label Nat :=
  match entry.1 with
  | .label label => table.insertIfNew label entry.2
  | _ => table

/-- The places of all labels of a body. -/
def Body.placeTable (body : Body) : Std.HashMap Label Nat :=
  body.nodes.toList.zipIdx.foldl recordPlace ∅

/-- A search for a node with an opcode. -/
inductive Search where
  /-- The node at an index is looked at next. -/
  | looking (index : Nat)
  /-- The search has ended. -/
  | ended (found : Option Nat)
  deriving DecidableEq, Repr

namespace Search

/-- The search after one more turn. -/
def turn (body : Body) (limit : Nat) : Search → Search
  | .looking index =>
    match body.get? index with
    | none => .ended none
    | some node =>
      if node.isMarker then
        match body.checkedNext? limit index with
        | none => .ended none
        | some next => .looking next
      else .ended (some index)
  | .ended found => .ended found

/-- The search for what a label leads to. -/
def ofLabel (body : Body) (label : Label) : Search :=
  match body.placeTable[label]? with
  | none => .ended none
  | some place => .looking place

/-- What a search is to find. -/
def outcome (body : Body) : Search → Option Nat
  | .looking index => body.skipMarkers? index
  | .ended found => found

/-- A bound on the turns that a search takes. -/
def turnsLeft (body : Body) : Search → Nat
  | .looking index => body.size - index + 1
  | .ended _ => 0

end Search

variable {body : Body} {index limit turns : Nat} {label : Label}

/-! ## Least indices -/

/-- What finds the least index of a set finds nothing only if the set is empty. -/
theorem eq_none_iff_of_isLeast {found : Option Nat} {indices : Set Nat}
    (least : ∀ index, found = some index ↔ IsLeast indices index) :
    found = none ↔ indices = ∅ := by
  constructor
  · intro missed
    rw [Set.eq_empty_iff_forall_notMem]
    intro index mem
    classical
    have first := (least _).2 (Set.Nonempty.isLeast_natFind ⟨index, mem⟩)
    rw [missed] at first
    cases first
  · intro none_there
    rw [Option.eq_none_iff_forall_ne_some]
    intro index found
    have mem := ((least index).1 found).1
    rw [none_there] at mem
    exact mem

namespace Body

theorem skipMarkers?_eq_some_iff {found : Nat} :
    body.skipMarkers? index = some found ↔ IsLeast (body.opcodesFrom index) found := by
  have isLeast : ∀ {found}, body.skipMarkers? index = some found →
      IsLeast (body.opcodesFrom index) found := by
    intro found h
    obtain ⟨le, opcode, free⟩ := hasOpcode_of_skipMarkers? h
    refine ⟨⟨le, opcode⟩, fun later there => ?_⟩
    by_contra lt
    exact free later there.1 (Nat.not_le.1 lt) there.2
  refine ⟨isLeast, fun least => ?_⟩
  cases h : body.skipMarkers? index with
  | none => exact absurd least.1.2 (not_hasOpcode_of_skipMarkers?_eq_none h least.1.1)
  | some other => rw [(isLeast h).unique least]

theorem labelIndex?_eq_some_iff_isLeast {place : Nat} :
    body.labelIndex? label = some place ↔ IsLeast (body.placesOf label) place := by
  rw [labelIndex?_eq_some_iff]
  constructor
  · rintro ⟨there, first⟩
    refine ⟨there, fun other here => ?_⟩
    by_contra lt
    exact first other (Nat.not_le.1 lt) here
  · rintro ⟨there, first⟩
    exact ⟨there, fun earlier lt here => absurd (first here) (Nat.not_le.2 lt)⟩

theorem skipMarkers?_of_hasOpcode (opcode : body.HasOpcode index) :
    body.skipMarkers? index = some index :=
  skipMarkers?_eq_some_iff.2 ⟨⟨Nat.le_refl index, opcode⟩, fun _ there => there.1⟩

theorem skipMarkers?_of_not_hasOpcode (marker : ¬ body.HasOpcode index) :
    body.skipMarkers? index = body.skipMarkers? (index + 1) := by
  rw [skipMarkers?_eq_head?, skipMarkers?_eq_head?, instructionsFrom_of_not_hasOpcode marker]

/-- Between an index and the first opcode from there on stand markers only. -/
theorem isLeast_opcodesFrom_iff {found : Nat} :
    IsLeast (body.opcodesFrom index) found ↔
      index ≤ found ∧ body.HasOpcode found ∧
        ∀ between, index ≤ between → between < found → body.HasMarker between := by
  constructor
  · rintro ⟨⟨le, opcode⟩, first⟩
    refine ⟨le, opcode, fun between ge lt => ?_⟩
    exact isMarker_of_not_hasOpcode opcode lt fun here =>
      absurd (first ⟨ge, here⟩) (Nat.not_le.2 lt)
  · rintro ⟨le, opcode, markers⟩
    refine ⟨⟨le, opcode⟩, ?_⟩
    rintro later ⟨ge, node, there, isNot⟩
    by_contra lt
    obtain ⟨node', here, marker⟩ := markers later ge (Nat.not_le.1 lt)
    obtain rfl := Option.some.inj (there.symm.trans here)
    rw [isNot] at marker
    cases marker

theorem labelTarget?_eq_some_iff {target : Nat} :
    body.labelTarget? label = some target ↔
      ∃ place, IsLeast (body.placesOf label) place ∧ place ≤ target ∧ body.HasOpcode target ∧
        ∀ between, place ≤ between → between < target → body.HasMarker between := by
  rw [labelTarget?, Option.bind_eq_some_iff]
  simp only [labelIndex?_eq_some_iff_isLeast, skipMarkers?_eq_some_iff, isLeast_opcodesFrom_iff]

end Body

/-! ## The table of places -/

theorem getElem?_recordPlace (table : Std.HashMap Label Nat) (node : Node) (index : Nat)
    (label : Label) :
    (recordPlace table (node, index))[label]? =
      table[label]?.or (if node = .label label then some index else none) := by
  cases node with
  | label other =>
    rw [recordPlace, Std.HashMap.getElem?_insertIfNew]
    by_cases same : other = label
    · subst same
      cases known : table[other]? with
      | none => simp [Std.HashMap.mem_iff_isSome_getElem?, known]
      | some place => simp [Std.HashMap.mem_iff_isSome_getElem?, known]
    · simp [same]
  | _ => simp [recordPlace]

/-- A pass over some nodes leaves the labels the places that they have and adds the first ones of
    the others. -/
theorem getElem?_foldl_recordPlace (nodes : List Node) (first : Nat)
    (table : Std.HashMap Label Nat) (label : Label) :
    ((nodes.zipIdx first).foldl recordPlace table)[label]? =
      table[label]?.or ((nodes.findIdx? (· = .label label)).map (first + ·)) := by
  induction nodes generalizing first table with
  | nil => simp
  | cons node rest ih =>
    rw [List.zipIdx_cons, List.foldl_cons, ih, getElem?_recordPlace, Option.or_assoc,
      List.findIdx?_cons]
    by_cases places : node = .label label
    · simp [places]
    · simp [places, Function.comp_def, Nat.add_comm, Nat.add_left_comm]

/-- The table has a label at its first place. -/
theorem Body.getElem?_placeTable (body : Body) (label : Label) :
    body.placeTable[label]? = body.labelIndex? label := by
  have nodes : body.nodes.toList.findIdx? (· = .label label) = body.labelIndex? label := by
    rw [← List.findIdx?_toArray, Array.toArray_toList, labelIndex?]
  rw [placeTable, getElem?_foldl_recordPlace, nodes]
  simp

/-! ## The loop -/

/-- Every index of a body that fits is followed by a machine word. -/
theorem Body.checkedNext?_eq (fits : body.size ≤ limit + 1) (index : Nat) :
    body.checkedNext? limit index = body.next? index := by
  unfold checkedNext? next?
  by_cases word : index < limit
  · simp [word]
  · simp [word, show ¬ index + 1 < body.size by omega]

namespace Search

variable {search : Search}

/-- What a turn does: behind the end and behind a last marker the search ends in vain, on an opcode
    it ends there, and from another marker it goes on to the next index. -/
theorem turn_looking (fits : body.size ≤ limit + 1) (index : Nat) :
    (body.size ≤ index ∧ (looking index).turn body limit = ended none) ∨
    (body.HasOpcode index ∧ (looking index).turn body limit = ended (some index)) ∨
    (¬ body.HasOpcode index ∧ index + 1 = body.size ∧
      (looking index).turn body limit = ended none) ∨
    (¬ body.HasOpcode index ∧ index + 1 < body.size ∧
      (looking index).turn body limit = looking (index + 1)) := by
  by_cases inside : index < body.nodes.size
  · have there : body.get? index = some body.nodes[index] := Array.getElem?_eq_getElem inside
    cases marker : body.nodes[index].isMarker with
    | false => exact .inr (.inl ⟨⟨_, there, marker⟩, by simp [turn, there, marker]⟩)
    | true =>
      have isNot : ¬ body.HasOpcode index := by simp [Body.HasOpcode, there, marker]
      by_cases more : index + 1 < body.size
      · have next : body.next? index = some (index + 1) := if_pos more
        exact .inr (.inr (.inr ⟨isNot, more,
          by simp [turn, there, marker, Body.checkedNext?_eq fits, next]⟩))
      · have next : body.next? index = none := if_neg more
        have last : index + 1 = body.size := Nat.le_antisymm inside (Nat.not_lt.1 more)
        exact .inr (.inr (.inl ⟨isNot, last,
          by simp [turn, there, marker, Body.checkedNext?_eq fits, next]⟩))
  · have outside : body.get? index = none := Array.getElem?_eq_none (Nat.not_lt.1 inside)
    exact .inl ⟨Nat.not_lt.1 inside, by simp [turn, outside]⟩

/-- A turn keeps what is to be found. -/
theorem outcome_turn (fits : body.size ≤ limit + 1) (search : Search) :
    (search.turn body limit).outcome body = search.outcome body := by
  cases search with
  | ended found => rfl
  | looking index =>
    obtain ⟨outside, turned⟩ | ⟨opcode, turned⟩ | ⟨marker, last, turned⟩ | ⟨marker, -, turned⟩ :=
      turn_looking fits index
    · rw [turned, outcome, outcome, Body.skipMarkers?_of_size_le outside]
    · rw [turned, outcome, outcome, Body.skipMarkers?_of_hasOpcode opcode]
    · rw [turned, outcome, outcome, Body.skipMarkers?_of_not_hasOpcode marker,
        Body.skipMarkers?_of_size_le (Nat.le_of_eq last.symm)]
    · rw [turned, outcome, outcome, Body.skipMarkers?_of_not_hasOpcode marker]

/-- A turn brings the end of the search nearer. -/
theorem turnsLeft_turn (fits : body.size ≤ limit + 1) (search : Search) :
    (search.turn body limit).turnsLeft body ≤ search.turnsLeft body - 1 := by
  cases search with
  | ended found => exact Nat.le_refl 0
  | looking index =>
    obtain ⟨-, turned⟩ | ⟨-, turned⟩ | ⟨-, -, turned⟩ | ⟨-, more, turned⟩ := turn_looking fits index
    · simp [turned, turnsLeft]
    · simp [turned, turnsLeft]
    · simp [turned, turnsLeft]
    · simp only [turned, turnsLeft]
      omega

theorem outcome_iterate (fits : body.size ≤ limit + 1) (turns : Nat) (search : Search) :
    ((turn body limit)^[turns] search).outcome body = search.outcome body := by
  induction turns generalizing search with
  | zero => rfl
  | succ turns ih => rw [Function.iterate_succ_apply, ih, outcome_turn fits]

theorem turnsLeft_iterate (fits : body.size ≤ limit + 1) (turns : Nat) (search : Search) :
    ((turn body limit)^[turns] search).turnsLeft body ≤ search.turnsLeft body - turns := by
  induction turns generalizing search with
  | zero => exact Nat.le_refl _
  | succ turns ih =>
    rw [Function.iterate_succ_apply]
    have one := turnsLeft_turn fits search
    have rest := ih (search.turn body limit)
    omega

/-- After enough turns the search has ended with what it was to find. -/
theorem iterate_turn_eq (fits : body.size ≤ limit + 1) (enough : search.turnsLeft body ≤ turns) :
    (turn body limit)^[turns] search = .ended (search.outcome body) := by
  have left := turnsLeft_iterate fits turns search
  have found := outcome_iterate fits turns search
  cases last : (turn body limit)^[turns] search with
  | looking index =>
    rw [last, turnsLeft] at left
    omega
  | ended result =>
    rw [last, outcome] at found
    rw [found]

end Search

/-! ## Labels and their targets -/

theorem outcome_ofLabel (body : Body) (label : Label) :
    (Search.ofLabel body label).outcome body = body.labelTarget? label := by
  rw [Search.ofLabel, Body.getElem?_placeTable, Body.labelTarget?]
  cases body.labelIndex? label with
  | none => rfl
  | some place => rfl

theorem turnsLeft_ofLabel_le (body : Body) (label : Label) :
    (Search.ofLabel body label).turnsLeft body ≤ body.size + 1 := by
  unfold Search.ofLabel
  split
  · exact Nat.zero_le _
  · simp only [Search.turnsLeft]
    omega

/-- From any index the least one with an opcode is found, and a label is looked up at the least
    index that places it; nothing is found only where there is no such index. A label leads to an
    opcode at or behind its first place, with only markers between. The table that is gathered in
    one pass has the same places, and a loop over machine words ends with the same index, whatever
    index it starts from. -/
theorem Body.resolution_spec (body : Body) :
    (∀ index,
      (∀ found, body.skipMarkers? index = some found ↔ IsLeast (body.opcodesFrom index) found) ∧
      (body.skipMarkers? index = none ↔ body.opcodesFrom index = ∅)) ∧
    (∀ label,
      (∀ place, body.labelIndex? label = some place ↔ IsLeast (body.placesOf label) place) ∧
      (body.labelIndex? label = none ↔ body.placesOf label = ∅) ∧
      body.placeTable[label]? = body.labelIndex? label) ∧
    (∀ label target, body.labelTarget? label = some target ↔
      ∃ place, IsLeast (body.placesOf label) place ∧ place ≤ target ∧ body.HasOpcode target ∧
        ∀ between, place ≤ between → between < target → body.HasMarker between) ∧
    ∀ limit, body.size ≤ limit + 1 →
      (∀ index turns, body.size - index < turns →
        (Search.turn body limit)^[turns] (.looking index) = .ended (body.skipMarkers? index)) ∧
      ∀ label turns, body.size < turns →
        (Search.turn body limit)^[turns] (.ofLabel body label) =
          .ended (body.labelTarget? label) := by
  refine ⟨fun index => ⟨fun found => Body.skipMarkers?_eq_some_iff,
      eq_none_iff_of_isLeast fun found => Body.skipMarkers?_eq_some_iff⟩,
    fun label => ⟨fun place => Body.labelIndex?_eq_some_iff_isLeast,
      eq_none_iff_of_isLeast fun place => Body.labelIndex?_eq_some_iff_isLeast,
      body.getElem?_placeTable label⟩,
    fun label target => Body.labelTarget?_eq_some_iff,
    fun limit fits => ⟨fun index turns enough => ?_, fun label turns enough => ?_⟩⟩
  · exact Search.iterate_turn_eq fits enough
  · rw [← outcome_ofLabel]
    exact Search.iterate_turn_eq fits (Nat.le_trans (turnsLeft_ofLabel_le body label) enough)

/-- Label 1 is placed twice and leads over label 0 and a frame to the only opcode; label 2 stands
    among the markers at the end and leads nowhere, and label 3 is not placed. The last machine word
    is no index of the body. -/
theorem Body.resolution_spec_repeated :
    let body : Body :=
      ⟨#[.label ⟨0⟩, .line 7 ⟨1⟩, .label ⟨1⟩, .label ⟨0⟩, .frame "SAME", .simple .nop,
      .label ⟨1⟩, .label ⟨2⟩, .line 9 ⟨2⟩]⟩
    let limit := 18446744073709551615
    body.size ≤ limit + 1 ∧
      IsLeast (body.placesOf ⟨1⟩) 2 ∧ body.placesOf ⟨3⟩ = ∅ ∧
      body.placeTable[(⟨1⟩ : Label)]? = some 2 ∧
      IsLeast (body.opcodesFrom 0) 5 ∧ body.opcodesFrom 6 = ∅ ∧ body.opcodesFrom limit = ∅ ∧
      (∃ place, IsLeast (body.placesOf ⟨1⟩) place ∧ place ≤ 5 ∧ body.HasOpcode 5 ∧
        ∀ between, place ≤ between → between < 5 → body.HasMarker between) ∧
      (Search.turn body limit)^[10] (.ofLabel body ⟨1⟩) = .ended (some 5) ∧
      (Search.turn body limit)^[10] (.ofLabel body ⟨2⟩) = .ended none ∧
      (Search.turn body limit)^[1] (.looking limit) = .ended none := by
  intro body limit
  have place : body.labelIndex? ⟨1⟩ = some 2 := by decide +kernel
  have target : body.labelTarget? ⟨1⟩ = some 5 := by decide +kernel
  have nowhere : body.labelTarget? ⟨2⟩ = none := by decide +kernel
  have beyond : body.skipMarkers? limit = none := by decide +kernel
  have fits : body.size ≤ limit + 1 := by decide +kernel
  obtain ⟨skips, places, leads, loops⟩ := resolution_spec body
  obtain ⟨searches, resolves⟩ := loops limit fits
  refine ⟨fits, ((places ⟨1⟩).1 2).1 place, (places ⟨3⟩).2.1.1 (by decide +kernel),
    (places ⟨1⟩).2.2.trans place, ((skips 0).1 5).1 (by decide +kernel),
    (skips 6).2.1 (by decide +kernel), (skips limit).2.1 beyond, (leads ⟨1⟩ 5).1 target, ?_, ?_, ?_⟩
  · rw [resolves ⟨1⟩ 10 (by decide +kernel), target]
  · rw [resolves ⟨2⟩ 10 (by decide +kernel), nowhere]
  · rw [searches limit 1 (by decide +kernel), beyond]

end BranchSieve
