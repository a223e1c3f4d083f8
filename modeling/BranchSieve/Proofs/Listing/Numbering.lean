import BranchSieve.Proofs.Bytecode.Renaming
import BranchSieve.Proofs.Listing.PrintedOperands
import Mathlib.Data.List.Find
import Mathlib.Data.List.Nodup

/-!
# Numbers of labels

A draft numbers its labels by their first mention. So the draft whose labels are the names of a
labeled body has that body: names are told apart, and the number of a label is its place among the
labels that the body mentions.
-/

namespace BranchSieve

/-- Induction on what is left when the first element is dropped wherever it occurs. -/
theorem eraseDups_induction {α : Type} [BEq α] {motive : List α → Prop} (nil : motive [])
    (cons : ∀ a list, motive (list.filter fun b => !b == a) → motive (a :: list)) (list : List α) :
    motive list := by
  induction count : list.length using Nat.strong_induction_on generalizing list with
  | _ count ih =>
    subst count
    cases list with
    | nil => exact nil
    | cons a list => exact cons a list (ih _ (Nat.lt_succ_of_le (List.length_filter_le _ _)) _ rfl)

/-- Duplicates are dropped before or after a renaming that tells the elements apart. -/
theorem eraseDups_map {α β : Type} [BEq α] [LawfulBEq α] [BEq β] [LawfulBEq β] {f : α → β}
    (list : List α) (apart : ∀ a ∈ list, ∀ b ∈ list, f a = f b → a = b) :
    (list.map f).eraseDups = list.eraseDups.map f := by
  induction list using eraseDups_induction with
  | nil => rfl
  | cons a list ih =>
    have same : ∀ b ∈ list, (f b == f a) = (b == a) := by
      intro b mem
      rw [Bool.eq_iff_iff, beq_iff_eq, beq_iff_eq]
      exact ⟨apart b (List.mem_cons_of_mem _ mem) a List.mem_cons_self, congrArg f⟩
    have others : (list.map f).filter (fun b => !b == f a) =
        (list.filter fun b => !b == a).map f := by
      rw [List.filter_map]
      exact congrArg _ (List.filter_congr fun b mem => congrArg _ (same b mem))
    have kept : ∀ b ∈ list.filter (fun b => !b == a), b ∈ a :: list :=
      fun b mem => List.mem_cons_of_mem _ (List.mem_of_mem_filter mem)
    rw [List.map_cons, List.eraseDups_cons, List.eraseDups_cons, others,
      ih fun b mem c mem' => apart b (kept b mem) c (kept c mem'), List.map_cons]

theorem nodup_eraseDups {α : Type} [BEq α] [LawfulBEq α] (list : List α) :
    list.eraseDups.Nodup := by
  induction list using eraseDups_induction with
  | nil => exact List.nodup_nil
  | cons a list ih =>
    rw [List.eraseDups_cons, List.nodup_cons]
    refine ⟨fun mem => ?_, ih⟩
    simpa using List.of_mem_filter (List.mem_eraseDups.1 mem)

/-- A search finds the same element whether or not duplicates are dropped. -/
theorem find?_eraseDups {α : Type} [BEq α] [LawfulBEq α] (p : α → Bool) (list : List α) :
    list.eraseDups.find? p = list.find? p := by
  induction list using eraseDups_induction with
  | nil => rfl
  | cons a list ih =>
    rw [List.eraseDups_cons, List.find?_cons, List.find?_cons, ih, List.find?_filter]
    cases found : p a with
    | true => rfl
    | false =>
      refine List.find?_congr fun b _ => ?_
      by_cases same : b = a
      · simp [same, found]
      · simp [same]

/-- Each element of a list without duplicates has its place. -/
theorem map_idxOf {α : Type} [BEq α] [LawfulBEq α] {list : List α} (distinct : list.Nodup) :
    list.map (list.idxOf ·) = List.range list.length := by
  refine List.ext_getElem (by simp) fun place inside _ => ?_
  rw [List.getElem_map, List.getElem_range, distinct.idxOf_getElem]

namespace Listing

variable {body : Body}

/-- The nodes of a body with the names of its labels. -/
def namedNodes (body : Body) : List (Insn String) :=
  body.nodes.toList.map (Insn.mapLabels Label.name)

theorem labels_namedNodes :
    (namedNodes body).flatMap Insn.labels =
      (body.nodes.toList.flatMap Insn.labels).map Label.name := by
  rw [namedNodes, List.flatMap_map, List.map_flatMap]
  simp only [Insn.labels_mapLabels]

theorem eraseDups_labels_namedNodes :
    ((namedNodes body).flatMap Insn.labels).eraseDups = body.mentioned.map Label.name := by
  rw [labels_namedNodes, eraseDups_map _ fun _ _ _ _ same => Label.name_injective same,
    Body.mentioned]

theorem mem_mentioned_iff {label : Label} :
    label ∈ body.mentioned ↔ label ∈ body.nodes.toList.flatMap Insn.labels :=
  List.mem_eraseDups

/-- The number of a label is its place among the labels that are mentioned. -/
theorem idxOf_name (labeled : body.IsLabeled) {label : Label} (mem : label ∈ body.mentioned) :
    (body.mentioned.map Label.name).idxOf label.name = label.id := by
  have numbered := labeled.numbered
  generalize body.mentioned.length = count at numbered
  rw [numbered] at mem ⊢
  obtain ⟨id, inside, rfl⟩ := List.mem_map.1 mem
  have less : id < count := List.mem_range.1 inside
  have distinct : (((List.range count).map Label.mk).map Label.name).Nodup := by
    have ids : Function.Injective Label.mk := fun _ _ same => Label.mk.inj same
    exact (List.nodup_range.map ids).map Label.name_injective
  have place := distinct.idxOf_getElem id (by simpa using less)
  simpa using place

/-- A draft with the names of a labeled body has that body. -/
theorem body_namedNodes (labeled : body.IsLabeled) (name descriptor : String) :
    Draft.body ⟨name, descriptor, (namedNodes body).toArray⟩ = body := by
  have kept : ∀ node ∈ body.nodes.toList,
      (node.mapLabels Label.name).mapLabels
        (fun name => ⟨(body.mentioned.map Label.name).idxOf name⟩) = node := by
    intro node inside
    rw [Insn.mapLabels_mapLabels]
    apply Insn.mapLabels_of_forall_eq
    intro label mem
    have mentioned : label ∈ body.mentioned :=
      mem_mentioned_iff.2 (List.mem_flatMap.2 ⟨node, inside, mem⟩)
    rw [Function.comp_apply, idxOf_name labeled mentioned]
  have nodes : (namedNodes body).map (Insn.mapLabels fun name =>
      ⟨(body.mentioned.map Label.name).idxOf name⟩) = body.nodes.toList := by
    rw [namedNodes, List.map_map]
    exact (List.map_congr_left kept).trans (List.map_id' _)
  rw [Draft.body, Draft.labelNames, List.toList_toArray, eraseDups_labels_namedNodes,
    List.map_toArray, nodes, Array.toArray_toList]

/-- Each label that is mentioned is placed. -/
theorem placed_namedNodes (labeled : body.IsLabeled) :
    ∀ label ∈ (namedNodes body).flatMap Insn.labels, .label label ∈ namedNodes body := by
  rw [labels_namedNodes]
  intro name mem
  obtain ⟨label, inside, rfl⟩ := List.mem_map.1 mem
  have once := labeled.placed label (mem_mentioned_iff.2 inside)
  have placed : .label label ∈ body.nodes.toList := List.count_pos_iff.1 (by omega)
  exact List.mem_map.2 ⟨_, placed, rfl⟩

/-- A place of a label has none of the same name in front of it. -/
theorem fresh_namedNodes (labeled : body.IsLabeled) {front back : List Node} {node : Node}
    (split : body.nodes.toList = front ++ node :: back) {name : String}
    (places : node.mapLabels Label.name = .label name) :
    .label name ∉ front.map (Insn.mapLabels Label.name) := by
  intro mem
  obtain ⟨label, rfl, rfl⟩ := Insn.mapLabels_eq_label_iff.1 places
  obtain ⟨other, inside, same⟩ := List.mem_map.1 mem
  obtain ⟨twin, rfl, named⟩ := Insn.mapLabels_eq_label_iff.1 same
  obtain rfl := Label.name_injective named
  have mentioned : twin ∈ body.mentioned := by
    rw [mem_mentioned_iff, split]
    simp [Insn.labels]
  have once := labeled.placed twin mentioned
  have before : 0 < front.count (.label twin) := List.count_pos_iff.2 inside
  rw [split, List.count_append, List.count_cons_self] at once
  omega

/-! ## The body of a draft -/

/-- The number of a name is the place of its first mention. -/
def Draft.number (draft : Draft) (name : String) : Label := ⟨draft.labelNames.idxOf name⟩

theorem Draft.toList_nodes_body (draft : Draft) :
    draft.body.nodes.toList = draft.nodes.toList.map (Insn.mapLabels draft.number) := by
  rw [Draft.body, Array.toList_map]
  rfl

theorem Draft.prefix_push (draft : Draft) (node : Insn String) :
    draft.nodes.toList <+: (draft.push node).nodes.toList := by
  rw [Draft.push, Array.toList_push]
  exact List.prefix_append _ _

/-- What is mentioned later leaves the numbers as they are. -/
theorem Draft.number_eq_of_prefix {draft later : Draft}
    (start : draft.nodes.toList <+: later.nodes.toList) {name : String}
    (mem : name ∈ draft.nodes.toList.flatMap Insn.labels) :
    later.number name = draft.number name := by
  rcases start with ⟨more, split⟩
  rw [Draft.number, Draft.number, Draft.labelNames, Draft.labelNames, ← split, List.flatMap_append,
    List.eraseDups_append, List.idxOf_append_of_mem (List.mem_eraseDups.2 mem)]

/-- A label is placed in a renamed list as often as its name was, if no other name becomes it. -/
theorem count_label_map {number : String → Label} {nodes : List (Insn String)} {name : String}
    (apart : ∀ other, .label other ∈ nodes → number other = number name → other = name) :
    (nodes.map (Insn.mapLabels number)).count (.label (number name)) =
      (nodes.filterMap placed?).count name := by
  induction nodes with
  | nil => rfl
  | cons node nodes ih =>
    have rest := ih fun other mem => apart other (List.mem_cons_of_mem _ mem)
    cases node with
    | label other =>
      have same : (number other == number name) = (other == name) := by
        rw [Bool.eq_iff_iff, beq_iff_eq, beq_iff_eq]
        exact ⟨apart other List.mem_cons_self, congrArg number⟩
      have place : ((Insn.label (number other) : Node) == .label (number name)) =
          (number other == number name) := by
        rw [Bool.eq_iff_iff, beq_iff_eq, beq_iff_eq, Insn.label.injEq]
      have named : placed? (.label other) = some other := rfl
      rw [List.map_cons, List.filterMap_cons_some named, List.count_cons, List.count_cons, rest,
        Insn.mapLabels, place, same]
    | _ => simpa [List.filterMap_cons, placed?, Insn.mapLabels, List.count_cons] using rest

/-- A draft in which each label that is mentioned is placed once has a labeled body. -/
theorem isLabeled_body {draft : Draft}
    (placed : ∀ name ∈ draft.nodes.toList.flatMap Insn.labels, .label name ∈ draft.nodes.toList)
    (once : (draft.nodes.toList.filterMap placed?).Nodup) : draft.body.IsLabeled := by
  have apart : ∀ a ∈ draft.labelNames, ∀ b ∈ draft.labelNames,
      draft.number a = draft.number b → a = b := by
    intro a mem b _ same
    exact (List.idxOf_inj mem).1 (Label.mk.inj same)
  have labels : draft.body.nodes.toList.flatMap Insn.labels =
      (draft.nodes.toList.flatMap Insn.labels).map draft.number := by
    rw [draft.toList_nodes_body, List.flatMap_map, List.map_flatMap]
    simp only [Insn.labels_mapLabels]
  have mentioned : draft.body.mentioned = draft.labelNames.map draft.number := by
    rw [Body.mentioned, labels, eraseDups_map _ fun a mem b mem' =>
      apart a (List.mem_eraseDups.2 mem) b (List.mem_eraseDups.2 mem'), Draft.labelNames]
  constructor
  · have places := map_idxOf (nodup_eraseDups (draft.nodes.toList.flatMap Insn.labels))
    rw [mentioned, List.length_map, Draft.labelNames, ← places, List.map_map]
    rfl
  · intro label mem
    rw [mentioned] at mem
    obtain ⟨name, known, rfl⟩ := List.mem_map.1 mem
    have there := placed name (List.mem_eraseDups.1 known)
    rw [draft.toList_nodes_body, count_label_map]
    · exact List.count_eq_one_of_mem once (List.mem_filterMap.2 ⟨_, there, rfl⟩)
    · intro other mem same
      refine apart other (List.mem_eraseDups.2 (List.mem_flatMap.2 ⟨_, mem, ?_⟩)) name known same
      simp [Insn.labels]

end Listing

end BranchSieve
