import BranchSieve.Bytecode.Body
import Mathlib.Data.List.Basic

/-!
# The instructions of a body

A body without its markers is the sequence of its nodes with an opcode, each with its index. What
skips markers looks at this sequence from an index on, and so the statements about bodies with
markers anywhere are statements about these sequences. The main fact is that such a sequence is
known from the index of one of its members: two indices from which the same node comes as the
`n`-th instruction have the same instructions behind them.
-/

namespace BranchSieve

/-- The nodes of a list that have an opcode, with their indices, where the first node of the list
    has the index `first`. -/
def instructionsOf (nodes : List Node) (first : Nat) : List (Node × Nat) :=
  (nodes.zipIdx first).filter fun (node, _) => !node.isMarker

@[simp]
theorem instructionsOf_nil (first : Nat) : instructionsOf [] first = [] := rfl

theorem instructionsOf_cons_marker {node : Node} (h : node.isMarker = true) (rest : List Node)
    (first : Nat) : instructionsOf (node :: rest) first = instructionsOf rest (first + 1) := by
  simp [instructionsOf, h]

theorem instructionsOf_cons_label (label : Label) (rest : List Node) (first : Nat) :
    instructionsOf (.label label :: rest) first = instructionsOf rest (first + 1) :=
  instructionsOf_cons_marker rfl rest first

theorem instructionsOf_cons_opcode {node : Node} (h : node.isMarker = false) (rest : List Node)
    (first : Nat) :
    instructionsOf (node :: rest) first = (node, first) :: instructionsOf rest (first + 1) := by
  simp [instructionsOf, h]

theorem instructionsOf_append (front back : List Node) (first : Nat) :
    instructionsOf (front ++ back) first =
      instructionsOf front first ++ instructionsOf back (first + front.length) := by
  simp [instructionsOf, List.zipIdx_append]

/-- There are no instructions among markers. -/
theorem instructionsOf_of_markers {nodes : List Node} (markers : ∀ node ∈ nodes, node.isMarker)
    (first : Nat) : instructionsOf nodes first = [] := by
  rw [instructionsOf, List.filter_eq_nil_iff]
  intro h mem
  rcases h with ⟨node, index⟩
  simp [markers node (List.fst_mem_of_mem_zipIdx mem)]

/-- The instructions without their indices are the nodes that are no markers. -/
theorem map_fst_instructionsOf (nodes : List Node) (first : Nat) :
    (instructionsOf nodes first).map Prod.fst = nodes.filter (!·.isMarker) := by
  induction nodes generalizing first with
  | nil => rfl
  | cons node rest ih =>
    cases marker : node.isMarker with
    | true => simp [instructionsOf_cons_marker marker, marker, ih]
    | false => simp [instructionsOf_cons_opcode marker, marker, ih]

namespace Body

/-- The nodes with an opcode at or behind an index, with their indices. -/
def instructionsFrom (body : Body) (index : Nat) : List (Node × Nat) :=
  instructionsOf (body.nodes.toList.drop index) index

variable {body : Body} {index later : Nat}

theorem instructionsFrom_of_size_le (h : body.size ≤ index) : body.instructionsFrom index = [] := by
  have none_left : body.nodes.toList.drop index = [] :=
    List.drop_eq_nil_of_le (by simpa [size] using h)
  rw [instructionsFrom, none_left, instructionsOf_nil]

/-- The nodes from an index on start with the node there. -/
theorem drop_eq_cons (inside : index < body.nodes.size) :
    body.nodes.toList.drop index = body.nodes[index] :: body.nodes.toList.drop (index + 1) := by
  rw [List.drop_eq_getElem_cons (by simpa using inside)]
  simp

theorem instructionsFrom_of_marker (inside : index < body.nodes.size)
    (marker : body.nodes[index].isMarker = true) :
    body.instructionsFrom index = body.instructionsFrom (index + 1) := by
  rw [instructionsFrom, drop_eq_cons inside, instructionsOf_cons_marker marker, instructionsFrom]

theorem instructionsFrom_of_opcode (inside : index < body.nodes.size)
    (opcode : body.nodes[index].isMarker = false) :
    body.instructionsFrom index =
      (body.nodes[index], index) :: body.instructionsFrom (index + 1) := by
  rw [instructionsFrom, drop_eq_cons inside, instructionsOf_cons_opcode opcode, instructionsFrom]

/-- Skipping markers finds the first instruction. -/
theorem skipMarkers?_eq_head? (body : Body) (index : Nat) :
    body.skipMarkers? index = (body.instructionsFrom index).head?.map Prod.snd := by
  fun_induction skipMarkers? body index with
  | case1 index inside marker ih => rw [ih, instructionsFrom_of_marker inside marker]
  | case2 index inside opcode =>
    rw [instructionsFrom_of_opcode inside (by simpa using opcode)]
    rfl
  | case3 index outside =>
    rw [instructionsFrom_of_size_le (Nat.not_lt.1 outside)]
    rfl

theorem nextOpcode?_eq_head? (body : Body) (index : Nat) :
    body.nextOpcode? index = (body.instructionsFrom (index + 1)).head?.map Prod.snd := by
  by_cases inside : index + 1 < body.size
  · simp [nextOpcode?, next?, inside, skipMarkers?_eq_head?]
  · rw [instructionsFrom_of_size_le (Nat.not_lt.1 inside)]
    simp [nextOpcode?, next?, inside]

theorem mem_instructionsFrom {node : Node} {place : Nat} :
    (node, place) ∈ body.instructionsFrom index ↔
      index ≤ place ∧ body.get? place = some node ∧ node.isMarker = false := by
  simp only [instructionsFrom, instructionsOf, List.mem_filter,
    List.mk_mem_zipIdx_iff_le_and_getElem?_sub, List.getElem?_drop, Bool.not_eq_true', get?,
    Array.getElem?_toList]
  constructor
  · intro h
    rcases h with ⟨⟨le, found⟩, opcode⟩
    rw [Nat.add_sub_of_le le] at found
    exact ⟨le, found, opcode⟩
  · intro h
    rcases h with ⟨le, found, opcode⟩
    rw [Nat.add_sub_of_le le]
    exact ⟨⟨le, found⟩, opcode⟩

/-- The nodes with an opcode from one index up to another one, with their indices. -/
def instructionsBetween (body : Body) (index later : Nat) : List (Node × Nat) :=
  instructionsOf ((body.nodes.toList.drop index).take (later - index)) index

theorem instructionsFrom_eq_append (body : Body) (le : index ≤ later) :
    body.instructionsFrom index =
      body.instructionsBetween index later ++ body.instructionsFrom later := by
  by_cases inside : later ≤ body.nodes.size
  · have length : ((body.nodes.toList.drop index).take (later - index)).length = later - index := by
      simp only [List.length_take, List.length_drop, Array.length_toList]
      omega
    have rest : (body.nodes.toList.drop index).drop (later - index) =
        body.nodes.toList.drop later := by
      rw [List.drop_drop, Nat.add_sub_of_le le]
    rw [instructionsFrom, ← List.take_append_drop (later - index) (body.nodes.toList.drop index),
      instructionsOf_append, length, rest, Nat.add_sub_of_le le]
    rfl
  · have all : (body.nodes.toList.drop index).take (later - index) = body.nodes.toList.drop index :=
      List.take_of_length_le (by simp only [List.length_drop, Array.length_toList]; omega)
    have outside : body.size ≤ later := by simp only [size]; omega
    rw [instructionsFrom_of_size_le outside, instructionsBetween, all, instructionsFrom,
      List.append_nil]

theorem bounds_of_mem_instructionsBetween {node : Node} {place : Nat}
    (h : (node, place) ∈ body.instructionsBetween index later) : index ≤ place ∧ place < later := by
  have mem := (List.mem_filter.1 h).1
  have lower := List.le_snd_of_mem_zipIdx mem
  have upper := List.snd_lt_of_mem_zipIdx mem
  simp only [List.length_take] at upper
  constructor <;> omega

/-- Behind the first instruction come the instructions from the index behind it. -/
theorem eq_instructionsFrom_of_cons {node : Node} {place : Nat} {rest : List (Node × Nat)}
    (h : body.instructionsFrom index = (node, place) :: rest) :
    rest = body.instructionsFrom (place + 1) := by
  have mem : (node, place) ∈ body.instructionsFrom index := by rw [h]; exact List.mem_cons_self
  obtain ⟨le, found, opcode⟩ := mem_instructionsFrom.1 mem
  obtain ⟨inside, rfl⟩ := Array.getElem?_eq_some_iff.1 found
  rw [instructionsFrom_eq_append body le, instructionsFrom_of_opcode inside opcode] at h
  cases skipped : body.instructionsBetween index place with
  | nil =>
    rw [skipped] at h
    exact (List.cons.inj h).2.symm
  | cons first others =>
    rw [skipped] at h
    have here : (first.1, first.2) ∈ body.instructionsBetween index place := by simp [skipped]
    have before := (bounds_of_mem_instructionsBetween here).2
    rw [(List.cons.inj h).1] at before
    exact absurd before (Nat.lt_irrefl _)

/-- Behind any instruction come the instructions from the index behind it. -/
theorem eq_instructionsFrom_of_append (front : List (Node × Nat)) {rest : List (Node × Nat)}
    {node : Node} {place : Nat}
    (h : body.instructionsFrom index = front ++ (node, place) :: rest) :
    rest = body.instructionsFrom (place + 1) := by
  induction front generalizing index with
  | nil => exact eq_instructionsFrom_of_cons h
  | cons first front ih => exact ih (eq_instructionsFrom_of_cons h).symm

/-- The instructions from the index of an instruction on start with it. -/
theorem instructionsFrom_eq_cons {node : Node} {place : Nat} (found : body.get? place = some node)
    (opcode : node.isMarker = false) :
    body.instructionsFrom place = (node, place) :: body.instructionsFrom (place + 1) := by
  obtain ⟨inside, rfl⟩ := Array.getElem?_eq_some_iff.1 found
  exact instructionsFrom_of_opcode inside opcode

/-- Up to an instruction come the instructions in front of it. -/
theorem instructionsBetween_eq_of_append {front rest : List (Node × Nat)} {node : Node}
    {place : Nat} (h : body.instructionsFrom index = front ++ (node, place) :: rest) :
    body.instructionsBetween index place = front := by
  have mem : (node, place) ∈ body.instructionsFrom index := by simp [h]
  obtain ⟨le, found, opcode⟩ := mem_instructionsFrom.1 mem
  have behind := eq_instructionsFrom_of_append front h
  rw [instructionsFrom_eq_append body le, instructionsFrom_eq_cons found opcode, ← behind] at h
  exact List.append_cancel_right h

/-- What stands between two indices is cut at any index between them. -/
theorem instructionsBetween_append {between : Nat} (le : index ≤ between) (le' : between ≤ later) :
    body.instructionsBetween index later =
      body.instructionsBetween index between ++ body.instructionsBetween between later := by
  have whole := instructionsFrom_eq_append body (Nat.le_trans le le')
  rw [instructionsFrom_eq_append body le, instructionsFrom_eq_append body le', ← List.append_assoc]
    at whole
  exact (List.append_cancel_right whole).symm

/-- An instruction cuts what stands in front of a later index. -/
theorem instructionsBetween_of_cons {front rest : List (Node × Nat)} {node : Node} {place : Nat}
    (split : body.instructionsBetween index later = front ++ (node, place) :: rest) :
    body.instructionsBetween index place = front ∧
      body.instructionsBetween place later = (node, place) :: rest := by
  have mem : (node, place) ∈ body.instructionsBetween index later := by simp [split]
  obtain ⟨ge, lt⟩ := bounds_of_mem_instructionsBetween mem
  have ahead : body.instructionsFrom index =
      front ++ (node, place) :: (rest ++ body.instructionsFrom later) := by
    rw [instructionsFrom_eq_append body (Nat.le_trans ge (Nat.le_of_lt lt)), split]
    simp
  have before := instructionsBetween_eq_of_append ahead
  refine ⟨before, ?_⟩
  rw [instructionsBetween_append ge (Nat.le_of_lt lt), before] at split
  exact List.append_cancel_left split

theorem instructionsBetween_of_le (le : later ≤ index) :
    body.instructionsBetween index later = [] := by
  rw [instructionsBetween, Nat.sub_eq_zero_of_le le, List.take_zero, instructionsOf_nil]

/-- Instructions stand in the order of their indices. -/
theorem pairwise_instructionsFrom (body : Body) (index : Nat) :
    (body.instructionsFrom index).Pairwise (·.2 < ·.2) := by
  apply List.Pairwise.filter _
  rw [← List.pairwise_map (f := Prod.snd) (R := (· < ·)), List.zipIdx_map_snd]
  exact List.pairwise_lt_range'

/-- The places of instructions are told apart. -/
theorem nodup_places (body : Body) (index : Nat) :
    ((body.instructionsFrom index).map Prod.snd).Nodup :=
  List.nodup_iff_pairwise_ne.2
    ((List.pairwise_map.2 (pairwise_instructionsFrom body index)).imp Nat.ne_of_lt)

/-- A part of the instructions misses none of those between two of its members. -/
theorem mem_of_between {front part back : List (Node × Nat)}
    (split : body.instructionsFrom index = front ++ part ++ back)
    {low high between : Node × Nat} (lowest : low ∈ part) (highest : high ∈ part)
    (mem : between ∈ body.instructionsFrom index) (ge : low.2 ≤ between.2)
    (le : between.2 ≤ high.2) : between ∈ part := by
  have ordered := pairwise_instructionsFrom body index
  rw [split] at mem ordered
  obtain ⟨ahead, -, behind⟩ := List.pairwise_append.1 ordered
  obtain ⟨-, -, before⟩ := List.pairwise_append.1 ahead
  rcases List.mem_append.1 mem with mem | mem
  · rcases List.mem_append.1 mem with mem | mem
    · exact absurd (before between mem low lowest) (Nat.not_lt.2 ge)
    · exact mem
  · have later := behind high (List.mem_append_right _ highest) between mem
    exact absurd later (Nat.not_lt.2 le)

/-- A part of the instructions is in order, too. -/
theorem pairwise_part {front part back : List (Node × Nat)}
    (split : body.instructionsFrom index = front ++ part ++ back) : part.Pairwise (·.2 < ·.2) := by
  have ordered := pairwise_instructionsFrom body index
  rw [split] at ordered
  exact (List.pairwise_append.1 (List.pairwise_append.1 ordered).1).2.1

/-- The first member of a part stands in front of the others. -/
theorem first_le_of_mem {front part back : List (Node × Nat)} {first member : Node × Nat}
    (split : body.instructionsFrom index = front ++ first :: part ++ back)
    (mem : member ∈ first :: part) : first.2 ≤ member.2 := by
  rcases List.mem_cons.1 mem with rfl | mem
  · exact Nat.le_refl _
  · exact Nat.le_of_lt (List.rel_of_pairwise_cons (pairwise_part split) mem)

/-- The last member of a part stands behind the others. -/
theorem le_last_of_mem {front part back : List (Node × Nat)} {last member : Node × Nat}
    (split : body.instructionsFrom index = front ++ (part ++ [last]) ++ back)
    (mem : member ∈ part ++ [last]) : member.2 ≤ last.2 := by
  rcases List.mem_append.1 mem with mem | mem
  · have ordered := (List.pairwise_append.1 (pairwise_part split)).2.2
    exact Nat.le_of_lt (ordered member mem last (by simp))
  · obtain rfl := List.mem_singleton.1 mem
    exact Nat.le_refl _

/-- Two parts of the instructions have a member in common only if one holds the first member of
    the other. -/
theorem disjoint_of_first_notMem {front part back front' part' back' : List (Node × Nat)}
    {first first' : Node × Nat}
    (split : body.instructionsFrom index = front ++ first :: part ++ back)
    (split' : body.instructionsFrom index = front' ++ first' :: part' ++ back')
    (apart : first ∉ first' :: part') (apart' : first' ∉ first :: part) :
    (first :: part).Disjoint (first' :: part') := by
  intro common mem mem'
  have le := first_le_of_mem split mem
  have le' := first_le_of_mem split' mem'
  rcases Nat.le_total first.2 first'.2 with before | behind
  · exact apart' (mem_of_between split List.mem_cons_self mem (by simp [split']) before le')
  · exact apart (mem_of_between split' List.mem_cons_self mem' (by simp [split]) behind le)

/-- The same node comes as the instruction of the same number from two indices only if no
    instruction stands between them. -/
theorem instructionsFrom_eq_of_same_place {index index' place : Nat} {node node' : Node}
    {front front' rest rest' : List (Node × Nat)}
    (h : body.instructionsFrom index = front ++ (node, place) :: rest)
    (h' : body.instructionsFrom index' = front' ++ (node', place) :: rest')
    (length : front.length = front'.length) :
    body.instructionsFrom index = body.instructionsFrom index' := by
  wlog le : index ≤ index' generalizing index index' node node' front front' rest rest' with ordered
  · exact (ordered h' h length.symm (Nat.le_of_not_le le)).symm
  have apart := instructionsFrom_eq_append body le
  have one : ((body.instructionsFrom index).map Prod.snd)[front.length]? = some place := by
    simp [h]
  have other : ((body.instructionsFrom index).map Prod.snd)[
      (body.instructionsBetween index index').length + front'.length]? = some place := by
    simp [apart, h']
  have none_between : (body.instructionsBetween index index').length = 0 := by
    have same :=
      (List.getElem?_inj (by simp [h]) (nodup_places body index)).1 (one.trans other.symm)
    omega
  rw [apart, List.length_eq_zero_iff.1 none_between, List.nil_append]

/-- An index carries an opcode if it comes first among its instructions. -/
theorem hasOpcode_iff_mem : body.HasOpcode index ↔
    ∃ node, (node, index) ∈ body.instructionsFrom index := by
  simp [HasOpcode, mem_instructionsFrom]

/-- In front of an instruction, an index that carries no opcode is that of a marker. -/
theorem isMarker_of_not_hasOpcode (opcode : body.HasOpcode later) (before : index < later)
    (marker : ¬ body.HasOpcode index) :
    ∃ node, body.get? index = some node ∧ node.isMarker = true := by
  obtain ⟨node, there, -⟩ := opcode
  have inside : index < body.nodes.size := by
    obtain ⟨le, -⟩ := Array.getElem?_eq_some_iff.1 there
    omega
  refine ⟨body.nodes[index], Array.getElem?_eq_getElem inside, ?_⟩
  by_contra other
  exact marker ⟨body.nodes[index], Array.getElem?_eq_getElem inside, Bool.eq_false_iff.2 other⟩

/-- Indices without an instruction between them have the same instructions. -/
theorem instructionsFrom_eq_of_none_between (le : index ≤ later)
    (free : ∀ between, index ≤ between → between < later → ¬ body.HasOpcode between) :
    body.instructionsFrom index = body.instructionsFrom later := by
  have whole := instructionsFrom_eq_append body le
  have none_between : body.instructionsBetween index later = [] := by
    rw [List.eq_nil_iff_forall_not_mem]
    rintro ⟨node, place⟩ mem
    obtain ⟨ge, lt⟩ := bounds_of_mem_instructionsBetween mem
    have there : (node, place) ∈ body.instructionsFrom index := by
      rw [whole]
      exact List.mem_append_left _ mem
    exact free place ge lt ⟨node, (mem_instructionsFrom.1 there).2⟩
  rw [whole, none_between, List.nil_append]

/-- An index without an opcode has the instructions of the next one. -/
theorem instructionsFrom_of_not_hasOpcode (marker : ¬ body.HasOpcode index) :
    body.instructionsFrom index = body.instructionsFrom (index + 1) := by
  refine instructionsFrom_eq_of_none_between (Nat.le_succ index) fun between ge lt => ?_
  obtain rfl : between = index := by omega
  exact marker

/-- A later index has other instructions if an instruction stands between. -/
theorem HasOpcode.instructionsFrom_ne (opcode : body.HasOpcode index) (lt : index < later) :
    body.instructionsFrom index ≠ body.instructionsFrom later := by
  intro same
  obtain ⟨node, mem⟩ := hasOpcode_iff_mem.1 opcode
  rw [same] at mem
  exact absurd (mem_instructionsFrom.1 mem).1 (Nat.not_le.2 lt)

/-- Where two indices have the same instructions, an index between them has these too. -/
theorem instructionsFrom_eq_of_between {between : Nat} (ge : index ≤ between) (le : between ≤ later)
    (same : body.instructionsFrom index = body.instructionsFrom later) :
    body.instructionsFrom between = body.instructionsFrom later := by
  have front := instructionsFrom_eq_append body ge
  have back := instructionsFrom_eq_append body le
  have none_between : body.instructionsBetween between later = [] := by
    have lengths := congrArg List.length front
    rw [same, back] at lengths
    simp only [List.length_append] at lengths
    exact List.length_eq_zero_iff.1 (by omega)
  rw [back, none_between, List.nil_append]

/-! A body that is given by its parts. -/

variable {front back : List Node} {label : Label}

/-- The instructions of what stands behind a part. -/
theorem instructionsFrom_of_append (split : body.nodes.toList = front ++ back) :
    body.instructionsFrom front.length = instructionsOf back front.length := by
  rw [instructionsFrom, split, List.drop_left]

/-- A label that is not placed earlier is at its place. -/
theorem labelIndex?_of_append (split : body.nodes.toList = front ++ .label label :: back)
    (fresh : .label label ∉ front) : body.labelIndex? label = some front.length := by
  have missed : front.findIdx? (fun node => decide (node = .label label)) = none := by
    rw [List.findIdx?_eq_none_iff]
    intro node mem
    exact decide_eq_false fun same => fresh (same ▸ mem)
  have nodes : body.nodes = (front ++ .label label :: back).toArray := by simp [← split]
  rw [labelIndex?, nodes, List.findIdx?_toArray, List.findIdx?_append, missed]
  simp [List.findIdx?_cons]

/-- Such a label leads to the first instruction behind it. -/
theorem labelTarget?_of_append (split : body.nodes.toList = front ++ .label label :: back)
    (fresh : .label label ∉ front) :
    body.labelTarget? label =
      (instructionsOf back (front.length + 1)).head?.map Prod.snd := by
  rw [labelTarget?, labelIndex?_of_append split fresh, Option.bind_some, skipMarkers?_eq_head?,
    instructionsFrom_of_append split, instructionsOf_cons_label]

end Body

end BranchSieve
