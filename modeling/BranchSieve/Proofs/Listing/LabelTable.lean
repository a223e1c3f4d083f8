import BranchSieve.Proofs.Listing.Acceptance
import BranchSieve.Proofs.Listing.Numbering

/-!
# Labels that are numbered as they come

A draft keeps the names of its labels until it ends. It can as well number them on the way: a table
has the names with their numbers, and the nodes and the places of labels are kept by number. The
label that is reported is then searched for by number, in a table whose entries come in no order
that is known. Step by step both ways keep in touch, so they end alike.
-/

namespace BranchSieve.Listing

/-- Names of labels with their numbers. -/
abbrev LabelTable := List (String × Label)

namespace LabelTable

/-- The number of a name. A new name has the next number. -/
def number (table : LabelTable) (name : String) : Label :=
  (table.lookup name).getD ⟨table.length⟩

/-- The table with an entry for a name. -/
def register (table : LabelTable) (name : String) : LabelTable :=
  if (table.lookup name).isSome then table else table ++ [(name, ⟨table.length⟩)]

/-- The order of entries by their numbers. -/
def le (a b : String × Label) : Bool := a.2.id ≤ b.2.id

/-- The entries by their numbers. -/
def sort (table : LabelTable) : LabelTable := table.mergeSort le

/-- The table of some names, each of which has its place as its number. -/
def ofNames (names : List String) : LabelTable :=
  names.map fun name => (name, ⟨names.idxOf name⟩)

variable {names : List String} {name : String}

theorem lookup_ofNames_of_mem (mem : name ∈ names) :
    (ofNames names).lookup name = some ⟨names.idxOf name⟩ :=
  List.lookup_graph _ mem

theorem lookup_ofNames_of_notMem (new : name ∉ names) : (ofNames names).lookup name = none := by
  rw [List.lookup_eq_none_iff]
  intro entry inside
  obtain ⟨other, mem, rfl⟩ := List.mem_map.1 inside
  exact bne_iff_ne.2 fun same => new (same ▸ mem)

@[simp]
theorem number_ofNames (names : List String) (name : String) :
    (ofNames names).number name = ⟨names.idxOf name⟩ := by
  unfold number
  by_cases mem : name ∈ names
  · rw [lookup_ofNames_of_mem mem, Option.getD_some]
  · rw [lookup_ofNames_of_notMem mem, Option.getD_none, ofNames, List.length_map,
      List.idxOf_eq_length mem]

theorem register_ofNames (names : List String) (name : String) :
    (ofNames names).register name = ofNames (if name ∈ names then names else names ++ [name]) := by
  unfold register
  by_cases mem : name ∈ names
  · rw [lookup_ofNames_of_mem mem, if_pos mem]
    rfl
  · -- The places of the names that are there do not change.
    have kept : ofNames names = names.map fun other => (other, ⟨(names ++ [name]).idxOf other⟩) :=
      List.map_congr_left fun other inside => by rw [List.idxOf_append_of_mem inside]
    have last : (names ++ [name]).idxOf name = names.length := by
      rw [List.idxOf_append_of_notMem mem, List.idxOf_cons_self, Nat.add_zero]
    rw [lookup_ofNames_of_notMem mem, if_neg mem, if_neg (by simp), kept, List.length_map, ofNames,
      List.map_append, List.map_singleton, last]

/-- A table that names are registered in has them by their first mention. -/
theorem foldl_register_ofNames (mentions more : List String) :
    more.foldl register (ofNames mentions.eraseDups) = ofNames (mentions ++ more).eraseDups := by
  induction more generalizing mentions with
  | nil => simp
  | cons name more ih =>
    have one : (mentions ++ [name]).eraseDups =
        if name ∈ mentions.eraseDups then mentions.eraseDups else mentions.eraseDups ++ [name] := by
      rw [List.eraseDups_append]
      by_cases mem : name ∈ mentions <;> simp [List.removeAll, mem, List.eraseDups_cons]
    rw [List.foldl_cons, register_ofNames, ← one, ih, List.append_assoc, List.singleton_append]

/-- The numbers of different names ascend with their places. -/
theorem pairwise_ofNames (distinct : names.Nodup) :
    (ofNames names).Pairwise fun a b => a.2.id < b.2.id := by
  have numbers : (ofNames names).map (·.2.id) = List.range names.length := by
    rw [ofNames, List.map_map, ← map_idxOf distinct]
    rfl
  rw [← List.pairwise_map (f := fun entry : String × Label => entry.2.id), numbers]
  exact List.pairwise_lt_range

/-- However the entries come, they are sorted into the order of the names. -/
theorem sort_of_perm (distinct : names.Nodup) {table : LabelTable}
    (perm : table.Perm (ofNames names)) : table.sort = ofNames names := by
  have ascending := pairwise_ofNames distinct
  have entries : table.sort.Perm (ofNames names) := (List.mergeSort_perm table le).trans perm
  have sorted : table.sort.Pairwise fun a b => a.2.id ≤ b.2.id := by
    have trans : ∀ a b c, le a b = true → le b c = true → le a c = true := by
      simpa [le] using fun _ _ _ => Nat.le_trans
    have total : ∀ a b, (le a b || le b a) = true := by
      simpa [le] using fun _ _ => Nat.le_total _ _
    simpa [le, sort] using List.pairwise_mergeSort trans total table
  refine List.Perm.eq_of_pairwise ?_ sorted (ascending.imp Nat.le_of_lt) entries
  -- Two entries with one number are one entry.
  intro a b here there le ge
  obtain ⟨name, mem, rfl⟩ := List.mem_map.1 (entries.mem_iff.1 here)
  obtain ⟨other, -, rfl⟩ := List.mem_map.1 there
  obtain rfl := (List.idxOf_inj mem).1 (Nat.le_antisymm le ge)
  rfl

end LabelTable

/-- A method that has not ended, with labels that are numbered where they are mentioned first. -/
structure NumberedDraft where
  name : String
  descriptor : String
  nodes : Array Node
  labels : LabelTable
  /-- The labels that are placed. -/
  placed : List Label
  deriving DecidableEq, Repr

namespace NumberedDraft

/-- A method without nodes. -/
def new (name descriptor : String) : NumberedDraft := ⟨name, descriptor, #[], [], []⟩

/-- The draft with one more node, whose labels are registered in the order of their mention. -/
def push (draft : NumberedDraft) (node : Insn String) : NumberedDraft :=
  let labels := node.labels.foldl LabelTable.register draft.labels
  { draft with
    nodes := draft.nodes.push (node.mapLabels labels.number)
    labels := labels
    placed := draft.placed ++ (placed? node).toList.map labels.number }

/-- The label with the least number of those that are never placed. The entries of the table come in
    the given order. -/
def undefinedLabel? (order : LabelTable → LabelTable) (draft : NumberedDraft) : Option String :=
  ((order draft.labels).sort.find? fun entry => !draft.placed.contains entry.2).map Prod.fst

/-- The finished method. -/
def finish (order : LabelTable → LabelTable) (draft : NumberedDraft) : Except ParseError Method :=
  match draft.undefinedLabel? order with
  | some label => .error (.undefinedLabel draft.name label)
  | none => .ok ⟨draft.name, draft.descriptor, ⟨draft.nodes⟩⟩

/-- The draft has the nodes of a draft with names, by their numbers there. -/
structure Follows (numbered : NumberedDraft) (draft : Draft) : Prop where
  name : numbered.name = draft.name
  descriptor : numbered.descriptor = draft.descriptor
  labels : numbered.labels = .ofNames draft.labelNames
  nodes : numbered.nodes = draft.nodes.map (Insn.mapLabels numbered.labels.number)
  placed : numbered.placed = (draft.nodes.toList.filterMap placed?).map numbered.labels.number

variable {numbered : NumberedDraft} {draft : Draft}

theorem follows_new (name descriptor : String) :
    (new name descriptor).Follows ⟨name, descriptor, #[]⟩ where
  name := rfl
  descriptor := rfl
  labels := rfl
  nodes := by simp [new]
  placed := rfl

theorem mem_labels_of_placed? {node : Insn String} {label : String}
    (places : placed? node = some label) : label ∈ node.labels := by
  cases node <;> simp [placed?] at places
  simp [Insn.labels, places]

/-- Both drafts stay in touch when they get the same node. -/
theorem Follows.push (follows : numbered.Follows draft) (node : Insn String) :
    (numbered.push node).Follows (draft.push node) := by
  have mentions : (draft.push node).nodes.toList.flatMap Insn.labels =
      draft.nodes.toList.flatMap Insn.labels ++ node.labels := by
    rw [Draft.push, Array.toList_push, List.flatMap_append, List.flatMap_singleton]
  have labels : (numbered.push node).labels = .ofNames (draft.push node).labelNames := by
    rw [NumberedDraft.push, follows.labels, Draft.labelNames, Draft.labelNames, mentions,
      LabelTable.foldl_register_ofNames]
  -- The labels that are mentioned already have the numbers that they had.
  have kept : ∀ other ∈ draft.nodes.toList, ∀ label ∈ other.labels,
      numbered.labels.number label = (numbered.push node).labels.number label := by
    intro other inside label mem
    have mentioned := List.mem_flatMap.2 ⟨other, inside, mem⟩
    rw [labels, follows.labels, LabelTable.number_ofNames, LabelTable.number_ofNames]
    exact (Draft.number_eq_of_prefix (draft.prefix_push node) mentioned).symm
  refine ⟨follows.name, follows.descriptor, labels, ?_, ?_⟩
  · have nodes : numbered.nodes =
        draft.nodes.map (Insn.mapLabels (numbered.push node).labels.number) := by
      rw [follows.nodes]
      exact Array.map_congr_left fun other inside =>
        Insn.mapLabels_congr (kept other (Array.mem_toList_iff.2 inside))
    rw [Draft.push, Array.map_push, ← nodes]
    rfl
  · have placed : numbered.placed =
        (draft.nodes.toList.filterMap placed?).map (numbered.push node).labels.number := by
      rw [follows.placed]
      refine List.map_congr_left fun label mem => ?_
      obtain ⟨other, inside, places⟩ := List.mem_filterMap.1 mem
      exact kept other inside label (mem_labels_of_placed? places)
    rw [Draft.push, Array.toList_push, List.filterMap_append, List.map_append, ← placed]
    cases places : placed? node <;> simp [NumberedDraft.push, places]

/-- Both drafts stay in touch over any nodes. -/
theorem Follows.foldl_push (follows : numbered.Follows draft) (nodes : List (Insn String)) :
    (nodes.foldl NumberedDraft.push numbered).Follows (nodes.foldl Draft.push draft) := by
  induction nodes generalizing numbered draft with
  | nil => exact follows
  | cons node nodes ih => exact ih (follows.push node)

/-- A label that is mentioned is placed by number exactly if it is placed by name. -/
theorem Follows.contains_placed (follows : numbered.Follows draft) {label : String}
    (mem : label ∈ draft.labelNames) :
    numbered.placed.contains (numbered.labels.number label) = draft.places label := by
  rw [Bool.eq_iff_iff, List.contains_iff_mem, follows.placed, List.mem_map, follows.labels]
  simp only [LabelTable.number_ofNames, Draft.places, Array.contains_iff_mem]
  constructor
  · rintro ⟨other, placed, same⟩
    obtain rfl := (List.idxOf_inj mem).1 (Label.mk.inj same).symm
    exact Array.mem_toList_iff.1 (mem_placed_iff.1 placed)
  · intro placed
    exact ⟨label, mem_placed_iff.2 (Array.mem_toList_iff.2 placed), rfl⟩

/-- The least number that is not placed belongs to the name that is mentioned first. -/
theorem Follows.undefinedLabel? (follows : numbered.Follows draft) {order : LabelTable → LabelTable}
    (shuffles : ∀ table, (order table).Perm table) :
    numbered.undefinedLabel? order = draft.undefinedLabel? := by
  have distinct : draft.labelNames.Nodup := nodup_eraseDups _
  have sorted : (order numbered.labels).sort = .ofNames draft.labelNames := by
    rw [follows.labels]
    exact LabelTable.sort_of_perm distinct (shuffles _)
  have alike : ∀ label ∈ draft.labelNames,
      (!numbered.placed.contains ⟨draft.labelNames.idxOf label⟩) = !draft.places label := by
    intro label mem
    rw [← follows.contains_placed mem, follows.labels, LabelTable.number_ofNames]
  rw [NumberedDraft.undefinedLabel?, sorted, LabelTable.ofNames, List.find?_map, Option.map_map]
  exact Option.map_id'.trans (List.find?_congr alike)

/-- Whatever the order of the entries is, the methods end alike. -/
theorem Follows.finish (follows : numbered.Follows draft) {order : LabelTable → LabelTable}
    (shuffles : ∀ table, (order table).Perm table) : numbered.finish order = draft.finish := by
  have body : ⟨numbered.nodes⟩ = draft.body := by
    rw [follows.nodes, follows.labels, Draft.body, funext (LabelTable.number_ofNames _)]
  unfold NumberedDraft.finish Draft.finish
  rw [follows.undefinedLabel? shuffles]
  cases draft.undefinedLabel? with
  | none => simp [follows.name, follows.descriptor, body]
  | some label => simp [follows.name]

end NumberedDraft

end BranchSieve.Listing
