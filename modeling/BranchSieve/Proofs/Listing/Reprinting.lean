import BranchSieve.Proofs.Listing.Acceptance
import BranchSieve.Proofs.Listing.ReadNodes
import BranchSieve.Proofs.Listing.RoundTrip

/-!
# Printing what was read

What a text is read as comes from trimmed parts of its lines, and a method that ends has its labels
numbered and placed. So a read class is printed as a listing that can be read again. Each node is
read back from its lines, with one exception: a field is printed with the mark ` : ` behind its
reference, and if the reference ends in ` :`, the first mark begins in the reference itself. The
text that was read had a tab or another blank there. So a read class without NaN is read back as it
is exactly if none of its fields has such a reference.
-/

namespace BranchSieve

open Text (IsWord IsLineRest IsTrimmed isBlank trim splitFirst words)

/-! ## What is read -/

/-- A method as a listing may spell it. -/
structure Method.IsRead (method : Method) : Prop where
  name : IsWord method.name.toList
  descriptor : method.descriptor.toList ≠ [] ∧ IsLineRest method.descriptor.toList
  nodes : ∀ node ∈ method.body.nodes.toList, node.IsRead
  labels : method.body.IsLabeled

/-- A class as a listing may spell it. -/
structure ClassListing.IsRead (listing : ClassListing) : Prop where
  name : IsWord listing.name.toList
  annotations : ∀ type ∈ listing.annotations, IsWord type.toList
  methods : ∀ method ∈ listing.methods, method.IsRead

namespace Listing

/-- A method under construction, whatever numbers its labels get. -/
structure Draft.IsRead (draft : Draft) : Prop where
  name : IsWord draft.name.toList
  descriptor : draft.descriptor.toList ≠ [] ∧ IsLineRest draft.descriptor.toList
  nodes : ∀ node ∈ draft.nodes.toList, ∀ number, (node.mapLabels number).IsRead
  once : (draft.nodes.toList.filterMap placed?).Nodup

/-- What is open is as a listing may spell it. -/
def Scope.IsRead : Scope → Prop
  | .outside => True
  | .inClass listing => listing.IsRead
  | .inMethod listing draft => listing.IsRead ∧ draft.IsRead

/-- The operands of an item are a trimmed part of one line. -/
def Item.IsOneLine : Item → Prop
  | .declare operands | .annotate operands | .begin operands | .finish operands
  | .instruction _ operands => IsLineRest operands
  | .switch _ _ _ _ => True

theorem Itemizes.isOneLine {lines : List (List Char)} {items : List Item}
    (itemized : Itemizes lines items) (feeds : ∀ line ∈ lines, '\n' ∉ line) :
    ∀ item ∈ items, item.IsOneLine := by
  induction itemized with
  | nil => simp
  | skip _ _ ih => exact ih (List.forall_mem_cons.1 feeds).2
  | @line line keyword operands _ _ _ split _ _ ih =>
    obtain ⟨free, others⟩ := List.forall_mem_cons.1 feeds
    obtain ⟨-, trimmed, -, inside⟩ := Text.splitFirst_spec split
    have rest : IsLineRest operands :=
      ⟨trimmed, fun feed => free ((Text.isInfix_trim line).subset (inside feed))⟩
    refine List.forall_mem_cons.2 ⟨?_, ih others⟩
    unfold Item.ofLine
    split_ifs <;> exact rest
  | switch _ _ _ _ _ ih =>
    refine List.forall_mem_cons.2 ⟨trivial, ih fun line mem => feeds line ?_⟩
    simp [mem]

/-- An item spells a node as a listing may spell it. -/
theorem Item.Spells.isRead {item : Item} {node : Insn String} (spells : item.Spells node)
    (oneLine : item.IsOneLine) (number : String → Label) : (node.mapLabels number).IsRead := by
  cases spells with
  | instruction spells => exact isRead_of_spellsNode spells oneLine
  | switch _ _ _ spells => exact isRead_of_spellsSwitch spells

theorem isWord_of_words {operands word : List Char} (one : words operands = [word]) :
    IsWord (String.ofList word).toList := by
  rw [String.toList_ofList]
  exact Text.isWord_of_mem_words (by rw [one]; exact List.mem_singleton_self word)

/-- One item keeps what is open as a listing may spell it. -/
theorem Scope.IsRead.takes {scope next : Scope} {item : Item} (read : scope.IsRead)
    (takes : scope.Takes item next) (oneLine : item.IsOneLine) : next.IsRead := by
  cases takes with
  | declare one => exact ⟨isWord_of_words one, by simp, by simp⟩
  | annotateClass one =>
    refine ⟨read.name, List.forall_mem_append.2 ⟨read.annotations, ?_⟩, read.methods⟩
    exact List.forall_mem_singleton.2 (isWord_of_words one)
  | annotateMethod one =>
    obtain ⟨inClass, inMethod⟩ := read
    refine ⟨⟨inClass.name, List.forall_mem_append.2 ⟨inClass.annotations, ?_⟩, inClass.methods⟩,
      inMethod⟩
    exact List.forall_mem_singleton.2 (isWord_of_words one)
  | @begin _ operands named described =>
    have cut : splitFirst operands = ((splitFirst operands).1, (splitFirst operands).2) := rfl
    obtain ⟨solid, trimmed, -, inside⟩ := Text.splitFirst_spec cut
    refine ⟨read, ?_, ?_, by simp, by simp⟩
    · rw [String.toList_ofList]
      exact ⟨named, solid⟩
    · rw [String.toList_ofList]
      exact ⟨described, trimmed, fun feed => oneLine.2 (inside feed)⟩
  | finish finished =>
    obtain ⟨inClass, inMethod⟩ := read
    obtain ⟨placed, rfl⟩ := finish_eq_ok_iff.1 finished
    refine ⟨inClass.name, inClass.annotations, List.forall_mem_append.2 ⟨inClass.methods, ?_⟩⟩
    refine List.forall_mem_singleton.2 ⟨inMethod.name, inMethod.descriptor, ?_,
      isLabeled_body placed inMethod.once⟩
    intro node mem
    simp only [Draft.body, Array.toList_map, List.mem_map] at mem
    obtain ⟨named, mem, rfl⟩ := mem
    exact inMethod.nodes named mem _
  | add spells fresh =>
    obtain ⟨inClass, inMethod⟩ := read
    refine ⟨inClass, inMethod.name, inMethod.descriptor, ?_, nodup_placed_push inMethod.once fresh⟩
    rw [Draft.push, Array.toList_push, List.forall_mem_append, List.forall_mem_singleton]
    exact ⟨inMethod.nodes, spells.isRead oneLine⟩

theorem Scope.IsRead.runs {scope final : Scope} {items : List Item} (read : scope.IsRead)
    (runs : scope.Runs items final) (oneLine : ∀ item ∈ items, item.IsOneLine) : final.IsRead := by
  induction runs with
  | nil => exact read
  | cons takes _ ih =>
    obtain ⟨first, others⟩ := List.forall_mem_cons.1 oneLine
    exact ih (read.takes takes first) others

/-- A text is read as a class as a listing may spell it. -/
theorem isRead_of_parse {text : String} {listing : ClassListing}
    (accepted : parse text = .ok listing) : listing.IsRead := by
  obtain ⟨items, itemized, runs⟩ := parse_eq_ok_iff.1 accepted
  have read : Scope.outside.IsRead := trivial
  exact read.runs runs (itemized.isOneLine fun _ mem => Text.newline_not_mem_of_mem_lines mem)

/-! ## What is read back -/

/-- Where a reference runs into the mark behind it, the end of the name does. -/
theorem exists_stem_of_runsIntoMark {owner name : String}
    (runsOn : " :".toList <:+ writeMember owner name) :
    ∃ stem, name.toList = stem ++ " :".toList ∧
      writeMember owner name = owner.toList ++ '.' :: stem ++ " :".toList := by
  obtain ⟨front, cut⟩ := runsOn
  rcases List.append_eq_append_iff.1 cut with ⟨between, -, mark⟩ | ⟨between, split, mark⟩
  · have inside : '.' ∈ " :".toList := by rw [mark]; simp
    exact absurd inside (by decide)
  · cases between with
    | nil => exact absurd mark (by simp)
    | cons c stem =>
      obtain ⟨rfl, rest⟩ := List.cons.inj (show '.' :: name.toList = c :: (stem ++ _) from mark)
      exact ⟨stem, rest, by rw [← cut, split]⟩

/-- A reference that runs into the mark behind it is cut in front of its own end. -/
theorem spellsOperands_cutField {op : Opcode} {owner name descriptor : String} {stem : List Char}
    (read : IsReadField op owner name descriptor) (named : name.toList = stem ++ " :".toList)
    (cut : writeMember owner name = owner.toList ++ '.' :: stem ++ " :".toList) :
    SpellsOperands op (writeMember owner name ++ ' ' :: ':' :: ' ' :: descriptor.toList)
      (.field op owner (String.ofList (Text.trimRight stem))
        (String.ofList (':' :: ' ' :: descriptor.toList))) := by
  have colon : IsWord [':'] := by decide
  have tail : IsLineRest (':' :: ' ' :: descriptor.toList) :=
    colon.isLineRest.append colon.1 read.rest read.described
  have split : Text.splitAt? " : ".toList (owner.toList ++ '.' :: stem ++ " : ".toList ++
      ':' :: ' ' :: descriptor.toList) =
      some (owner.toList ++ '.' :: stem, ':' :: ' ' :: descriptor.toList) := by
    refine Text.splitAt?_append (by decide) ?_ _
    rw [show " : ".toList.dropLast = " :".toList from rfl, ← cut]
    exact read.uncut
  have trimmed :
      trim (owner.toList ++ '.' :: stem) = owner.toList ++ '.' :: Text.trimRight stem := by
    have first : ∀ c ∈ (owner.toList ++ '.' :: stem).head?, isBlank c = false := by
      intro c mem
      refine read.reference.1.1 c ?_
      rw [cut, List.head?_append, Option.mem_def.1 mem]
      rfl
    rw [trim, Text.trimLeft_of_head? first, Text.trimRight_append_cons rfl]
  have noDot : '.' ∉ Text.trimRight stem := by
    intro dot
    refine read.named ?_
    rw [named]
    exact List.mem_append_left _ ((Text.isPrefix_trimRight stem).subset dot)
  rw [SpellsOperands, read.kind]
  refine ⟨_, ':' :: ' ' :: descriptor.toList, owner.toList, Text.trimRight stem, ?_, trimmed, noDot,
    ?_⟩
  · rw [← split, cut]
    simp
  · rw [Text.trim_of_isTrimmed tail.1, String.ofList_toList]

/-- Such a field is shown as another one. -/
theorem exists_shows_field {op : Opcode} {owner name descriptor : String}
    (read : IsReadField op owner name descriptor)
    (runsOn : " :".toList <:+ writeMember owner name) :
    ∃ shown descriptor' : String, shown ≠ name ∧
      Shows (Insn.field op owner name descriptor).lines (.field op owner shown descriptor') := by
  obtain ⟨stem, named, cut⟩ := exists_stem_of_runsIntoMark runsOn
  refine ⟨_, _, fun same => ?_, shows_field (spellsOperands_cutField read named cut) read.reference
    read.described read.rest⟩
  have lengths := congrArg (List.length ∘ String.toList) same
  have le := (Text.isPrefix_trimRight stem).length_le
  simp only [Function.comp_apply, String.toList_ofList, named, List.length_append,
    show " :".toList.length = 2 from rfl] at lengths
  omega

/-- A node, and the node that its lines spell. -/
structure ReadBack (node shown : Node) : Prop where
  shows : ShownAs node shown
  labels : shown.labels = node.labels
  places : ∀ label, shown = .label label ↔ node = .label label
  same : shown = node ↔ ¬ node.RunsIntoMark

theorem exists_readBack {node : Node} (read : node.IsRead) (number : ¬ node.LoadsNaN) :
    ∃ shown, ReadBack node shown := by
  by_cases runsOn : node.RunsIntoMark
  · cases node with
    | field op owner name descriptor =>
      obtain ⟨shown, descriptor', other, shows⟩ := exists_shows_field read runsOn
      refine ⟨.field op owner shown descriptor', shows, rfl, by simp, ?_⟩
      refine iff_of_false (fun same => other ?_) (not_not.2 runsOn)
      exact (Insn.field.inj same).2.2.1
    | _ => exact runsOn.elim
  · exact ⟨node, shows_lines (read.printable number runsOn), rfl, fun _ => Iff.rfl,
      iff_of_true rfl runsOn⟩

theorem labels_of_readBack {nodes shown : List Node} (back : List.Forall₂ ReadBack nodes shown) :
    shown.flatMap Insn.labels = nodes.flatMap Insn.labels := by
  induction back with
  | nil => rfl
  | cons first _ ih => rw [List.flatMap_cons, List.flatMap_cons, first.labels, ih]

theorem count_label_of_readBack {nodes shown : List Node} (back : List.Forall₂ ReadBack nodes shown)
    (label : Label) : shown.count (.label label) = nodes.count (.label label) := by
  induction back with
  | nil => rfl
  | cons first _ ih =>
    rw [List.count_cons, List.count_cons, ih]
    simp only [beq_iff_eq, first.places]

/-- A body whose nodes are read back as others keeps its labels. -/
theorem isLabeled_of_readBack {body shown : Body} (labeled : body.IsLabeled)
    (back : List.Forall₂ ReadBack body.nodes.toList shown.nodes.toList) : shown.IsLabeled := by
  have mentioned : shown.mentioned = body.mentioned := by
    rw [Body.mentioned, labels_of_readBack back, Body.mentioned]
  constructor
  · rw [mentioned]
    exact labeled.numbered
  · intro label mem
    rw [mentioned] at mem
    rw [count_label_of_readBack back]
    exact labeled.placed label mem

/-- Lists are equal exactly where their elements are, if these say so one by one. -/
theorem forall₂_eq_iff {α : Type} {P : α → Prop} {list other : List α}
    (same : List.Forall₂ (fun a b => b = a ↔ P a) list other) :
    other = list ↔ ∀ a ∈ list, P a := by
  induction same with
  | nil => simp
  | cons first _ ih => rw [List.cons.injEq, List.forall_mem_cons, first, ih]

/-- A read method, and the method that its lines spell. -/
theorem exists_methodShownAs {method : Method} (read : method.IsRead)
    (numbers : ∀ node ∈ method.body.nodes.toList, ¬ node.LoadsNaN) :
    ∃ shown, MethodShownAs method shown ∧
      (shown = method ↔ ∀ node ∈ method.body.nodes.toList, ¬ node.RunsIntoMark) := by
  obtain ⟨nodes, back⟩ := exists_forall₂ (R := ReadBack)
    fun node mem => exists_readBack (read.nodes node mem) (numbers node mem)
  refine ⟨⟨method.name, method.descriptor, ⟨nodes.toArray⟩⟩, ⟨⟨rfl, read.name⟩,
    ⟨rfl, read.descriptor⟩, back.imp fun _ _ one => one.shows,
    isLabeled_of_readBack read.labels back⟩, ?_⟩
  rw [← forall₂_eq_iff (back.imp fun _ _ one => one.same)]
  constructor
  · intro same
    rw [← same]
  · intro same
    rw [same]

theorem exists_classShownAs {listing : ClassListing} (read : listing.IsRead)
    (numbers : ∀ method ∈ listing.methods, ∀ node ∈ method.body.nodes.toList, ¬ node.LoadsNaN) :
    ∃ shown, ClassShownAs listing shown ∧ (shown = listing ↔
      ∀ method ∈ listing.methods, ∀ node ∈ method.body.nodes.toList, ¬ node.RunsIntoMark) := by
  obtain ⟨methods, back⟩ := exists_forall₂
    fun method mem => exists_methodShownAs (read.methods method mem) (numbers method mem)
  refine ⟨⟨listing.name, listing.annotations, methods⟩, ⟨⟨rfl, read.name⟩, ⟨rfl, read.annotations⟩,
    back.imp fun _ _ one => one.1⟩, ?_⟩
  rw [← forall₂_eq_iff (back.imp fun _ _ one => one.2)]
  constructor
  · intro same
    rw [← same]
  · intro same
    rw [same]

/-- What was read is printed as a listing that can be read. Unless it loads NaN, the same class is
    read exactly if none of its fields has a reference that runs into the mark behind it. -/
theorem parse_render_eq_iff {text : String} {listing : ClassListing}
    (accepted : parse text = .ok listing)
    (numbers : ∀ method ∈ listing.methods, ∀ node ∈ method.body.nodes.toList, ¬ node.LoadsNaN) :
    parse listing.render = .ok listing ↔
      ∀ method ∈ listing.methods, ∀ node ∈ method.body.nodes.toList, ¬ node.RunsIntoMark := by
  obtain ⟨shown, shows, same⟩ := exists_classShownAs (isRead_of_parse accepted) numbers
  rw [parse_eq_ok_of_leads (leads_shown shows), Except.ok.injEq, same]

/-- A listing with more blanks, signs and zeros than its class is printed with. -/
theorem parse_render_loose :
    let text := "class\tC\n\nmethod f ( I )V \nL07\n LINENUMBER +5 L7\nL7\n" ++
      "\u00a0GETFIELD .p : x\u00a0 :  I : J\n LDC \"a\"b\\n\"\n LDC -0.50F\n" ++
      "TABLESWITCH\n +2 : L07\n3:L7\n default:L07\n // done\nend method\nannotation LA;"
    let nodes : Array Node :=
      #[.label ⟨0⟩, .line 5 ⟨1⟩, .label ⟨1⟩, .field .getfield "" "p" "x\u00a0 :  I : J",
        .ldc (.string "a\"b\n"), .ldc (.float 0xBF000000), .tableSwitch 2 3 [⟨0⟩, ⟨1⟩] ⟨0⟩]
    let listing : ClassListing := ⟨"C", ["LA;"], [⟨"f", "( I )V", ⟨nodes⟩⟩]⟩
    parse text = .ok listing ∧
      (∀ method ∈ listing.methods, ∀ node ∈ method.body.nodes.toList, ¬ node.LoadsNaN) ∧
      parse listing.render = .ok listing := by
  intro text nodes listing
  have accepted : parse text = .ok listing := by decide +kernel
  have numbers :
      ∀ method ∈ listing.methods, ∀ node ∈ method.body.nodes.toList, ¬ node.LoadsNaN := by
    decide +kernel
  exact ⟨accepted, numbers, (parse_render_eq_iff accepted numbers).2 (by decide +kernel)⟩

/-- A reference that ends in a colon is cut from a mark with a tab, but printed in front of one with
    a blank. -/
theorem parse_render_ne_marked :
    let text := "class C\nmethod m ()V\n  GETFIELD a.b :\t : I\nend\n"
    let listing : ClassListing := ⟨"C", [], [⟨"m", "()V", ⟨#[.field .getfield "a" "b :" "I"]⟩⟩]⟩
    parse text = .ok listing ∧ parse listing.render ≠ .ok listing := by
  decide +kernel

end Listing

end BranchSieve
