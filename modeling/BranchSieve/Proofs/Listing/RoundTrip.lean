import BranchSieve.Proofs.Listing.Numbering
import BranchSieve.Proofs.Listing.PrintedLines

/-!
# Reading a printed listing

A class that a listing can show is read back from what is printed. The lines of the text are the
lines that were printed; they are read as one item for the class, for each annotation and each node,
and for each begin and end of a method. A run over these items adds the nodes with the names of
their labels, and the end of a method gives the labels the numbers that they have in the body.
-/

namespace BranchSieve

open Text (IsWord IsLineRest IsPlainLine Joins endLines isBlank splitFirst words)

/-- The lines of a method. -/
def Method.lines (method : Method) : List (List Char) :=
  writeInstruction "method" [method.name.toList, method.descriptor.toList] ::
    (method.body.nodes.toList.flatMap Insn.lines ++ ["end".toList])

/-- The lines of a class. -/
def ClassListing.lines (listing : ClassListing) : List (List Char) :=
  writeInstruction "class" [listing.name.toList] ::
    ((listing.annotations.map fun type => writeInstruction "annotation" [type.toList]) ++
      listing.methods.flatMap Method.lines)

theorem endLines_flatMap {α : Type} (f : α → List (List Char)) (list : List α) :
    endLines (list.flatMap f) = list.flatMap fun a => endLines (f a) :=
  List.flatMap_assoc

theorem endLines_methodLines (method : Method) : endLines method.lines = method.write := by
  have nodes : endLines (method.body.nodes.toList.flatMap Insn.lines) =
      method.body.nodes.toList.flatMap fun node => ' ' :: ' ' :: node.write ++ ['\n'] := by
    simp only [endLines_flatMap, endLines_lines]
  rw [Method.lines, Text.endLines_cons, Text.endLines_append, nodes, Method.write,
    List.append_assoc]
  simp [endLines]

/-- A class is printed by its lines. -/
theorem endLines_classLines (listing : ClassListing) : endLines listing.lines = listing.write := by
  have methods : endLines (listing.methods.flatMap Method.lines) =
      listing.methods.flatMap Method.write := by
    simp only [endLines_flatMap, endLines_methodLines]
  have annotations : endLines (listing.annotations.map fun type =>
      writeInstruction "annotation" [type.toList]) =
      listing.annotations.flatMap fun type =>
        writeInstruction "annotation" [type.toList] ++ ['\n'] := by
    rw [endLines, List.flatMap_map]
  rw [ClassListing.lines, Text.endLines_cons, Text.endLines_append, annotations, methods,
    ClassListing.write]
  simp

namespace Listing

/-- Lines that are read one after another are read together. -/
theorem Itemizes.append {front back : List (List Char)} {items others : List Item}
    (itemized : Itemizes front items) (rest : Itemizes back others) :
    Itemizes (front ++ back) (items ++ others) := by
  induction itemized with
  | nil => exact rest
  | skip skipped _ ih => exact .skip skipped ih
  | line shown split single _ ih => exact .line shown split single ih
  | switch shown split before closed _ ih =>
    simpa using Itemizes.switch shown split before closed ih

/-- Lines that are read as items which lead from one scope to another. -/
structure Leads [Overflow] (lines : List (List Char)) (scope next : Scope) : Prop where
  items : ∃ items, Itemizes lines items ∧ scope.Runs items next
  plain : ∀ line ∈ lines, IsPlainLine line

section Leads

variable [Overflow] {scope next final : Scope} {front back : List (List Char)}

theorem Leads.nil : Leads [] scope scope := ⟨⟨[], .nil, .nil⟩, by simp⟩

theorem Leads.append (first : Leads front scope next) (second : Leads back next final) :
    Leads (front ++ back) scope final := by
  obtain ⟨items, itemized, runs⟩ := first.items
  obtain ⟨others, itemized', runs'⟩ := second.items
  refine ⟨⟨items ++ others, itemized.append itemized', ?_⟩, ?_⟩
  · exact Scope.runs_append_iff.2 ⟨next, runs, runs'⟩
  · exact List.forall_mem_append.2 ⟨first.plain, second.plain⟩

/-- A line outside of a body leads on if the scope takes its item. -/
theorem leads_line {keyword operands text : List Char} (word : IsWord keyword)
    (noComment : keyword.head? ≠ some '/') (single : ∀ kind : SwitchKind, keyword ≠ kind.keyword)
    (rest : IsLineRest operands) (joins : Joins keyword operands text)
    (takes : scope.Takes (.ofLine keyword operands) next) : Leads [text] scope next := by
  have blank : ∀ c ∈ ([] : List Char), isBlank c = true := by simp
  have noIndent : ∀ c ∈ ([] : List Char), c = ' ' := by simp
  constructor
  · exact ⟨_, itemizes_line blank word noComment single rest.1 joins, .cons takes .nil⟩
  · rw [List.forall_mem_singleton]
    exact Text.isPlainLine_append noIndent word rest joins

/-- A line that makes the class or a method leads on if the scope takes its item. -/
theorem leads_keyword {keyword : String} {operands : List Char}
    (reserved : keyword ∈ ["class", "annotation", "method", "end"]) (rest : IsLineRest operands)
    (takes : scope.Takes (.ofLine keyword.toList operands) next) {text : List Char}
    (joins : Joins keyword.toList operands text) : Leads [text] scope next := by
  have table : (["class", "annotation", "method", "end"].all fun keyword =>
      IsWord keyword.toList ∧ keyword.toList.head? ≠ some '/') = true := by
    decide
  have spelling := List.all_eq_true.1 table keyword reserved
  rw [decide_eq_true_eq] at spelling
  have single : ∀ kind : SwitchKind, keyword.toList ≠ kind.keyword := by
    intro kind same
    obtain ⟨noClass, noAnnotation, noMethod, noEnd⟩ := keyword_spelling kind
    simp only [List.mem_cons, List.not_mem_nil, or_false] at reserved
    rcases reserved with rfl | rfl | rfl | rfl
    · exact noClass same.symm
    · exact noAnnotation same.symm
    · exact noMethod same.symm
    · exact noEnd same.symm
  exact leads_line spelling.1 spelling.2 single rest joins takes

/-- The first line declares the class. -/
theorem leads_declaration {name : String} (word : IsWord name.toList) :
    Leads ["class".toList ++ ' ' :: name.toList] .outside (.inClass ⟨name, [], []⟩) := by
  have declares : Scope.outside.Takes (.ofLine "class".toList name.toList)
      (.inClass ⟨name, [], []⟩) := by
    have takes : Scope.outside.Takes (.declare name.toList) _ :=
      .declare (Text.words_of_isWord word)
    rwa [String.ofList_toList] at takes
  exact leads_keyword (by simp) word.isLineRest declares (.inl rfl)

end Leads

/-! ## Methods -/

/-- A node whose lines spell a node, which may be another one. -/
def ShownAs (node shown : Node) : Prop := Shows node.lines (shown.mapLabels Label.name)

/-- A method whose lines spell a method, node by node. -/
structure MethodShownAs (method shown : Method) : Prop where
  name : method.name = shown.name ∧ IsWord shown.name.toList
  descriptor : method.descriptor = shown.descriptor ∧ shown.descriptor.toList ≠ [] ∧
    IsLineRest shown.descriptor.toList
  nodes : List.Forall₂ ShownAs method.body.nodes.toList shown.body.nodes.toList
  labels : shown.body.IsLabeled

/-- A class whose lines spell a class. -/
structure ClassShownAs (listing shown : ClassListing) : Prop where
  name : listing.name = shown.name ∧ IsWord shown.name.toList
  annotations : listing.annotations = shown.annotations ∧
    ∀ type ∈ shown.annotations, IsWord type.toList
  methods : List.Forall₂ MethodShownAs listing.methods shown.methods

/-- What can be shown is shown as it is. -/
theorem methodShownAs_of_printable {method : Method} (printable : method.Printable) :
    MethodShownAs method method where
  name := ⟨rfl, printable.name⟩
  descriptor := ⟨rfl, printable.descriptor⟩
  nodes := List.forall₂_same.2 fun node mem => shows_lines (printable.nodes node mem)
  labels := printable.labels

theorem classShownAs_of_printable {listing : ClassListing} (printable : listing.Printable) :
    ClassShownAs listing listing where
  name := ⟨rfl, printable.name⟩
  annotations := ⟨rfl, printable.annotations⟩
  methods := List.forall₂_same.2 fun method mem =>
    methodShownAs_of_printable (printable.methods method mem)

variable {listing : ClassListing} {body : Body}

/-- The lines of a node add the node that they spell. -/
theorem leads_node {draft : Draft} {lines : List (List Char)} {node : Insn String}
    (shows : Shows lines node)
    (fresh : ∀ label, node = .label label → .label label ∉ draft.nodes.toList) :
    Leads lines (.inMethod listing draft) (.inMethod listing (draft.push node)) := by
  obtain ⟨⟨item, itemized, spells⟩, plain⟩ := shows
  exact ⟨⟨[item], itemized, .cons (.add spells fresh) .nil⟩, plain⟩

theorem leads_nodes (labeled : body.IsLabeled) (name descriptor : String)
    {front back nodes : List Node} (split : body.nodes.toList = front ++ back)
    (shows : List.Forall₂ ShownAs nodes back) :
    Leads (nodes.flatMap Insn.lines)
      (.inMethod listing ⟨name, descriptor, (front.map (Insn.mapLabels Label.name)).toArray⟩)
      (.inMethod listing ⟨name, descriptor, (namedNodes body).toArray⟩) := by
  induction shows generalizing front with
  | nil =>
    rw [List.append_nil] at split
    rw [namedNodes, split]
    exact .nil
  | @cons node shown nodes back shows _ ih =>
    have pushed : Draft.push ⟨name, descriptor, (front.map (Insn.mapLabels Label.name)).toArray⟩
        (shown.mapLabels Label.name) =
        ⟨name, descriptor, ((front ++ [shown]).map (Insn.mapLabels Label.name)).toArray⟩ := by
      simp [Draft.push]
    have first : Leads node.lines
        (.inMethod listing ⟨name, descriptor, (front.map (Insn.mapLabels Label.name)).toArray⟩)
        (.inMethod listing ⟨name, descriptor,
          ((front ++ [shown]).map (Insn.mapLabels Label.name)).toArray⟩) := by
      rw [← pushed]
      exact leads_node shows fun _ places => fresh_namedNodes labeled split places
    rw [List.flatMap_cons]
    apply first.append
    apply ih
    rw [split, List.append_assoc, List.singleton_append]

/-- The lines of a method add the method that they spell. -/
theorem leads_method {method shown : Method} (shows : MethodShownAs method shown) :
    Leads method.lines (.inClass listing)
      (.inClass { listing with methods := listing.methods ++ [shown] }) := by
  obtain ⟨⟨sameName, word⟩, ⟨sameDescriptor, nonempty, rest⟩, nodes, labeled⟩ := shows
  have operands : splitFirst (shown.name.toList ++ ' ' :: shown.descriptor.toList) =
      (shown.name.toList, shown.descriptor.toList) := by
    rw [Text.splitFirst_append word.2 rfl, Text.trim_of_isTrimmed rest.1]
  have begins : (Scope.inClass listing).Takes
      (.ofLine "method".toList (shown.name.toList ++ ' ' :: shown.descriptor.toList))
      (.inMethod listing ⟨shown.name, shown.descriptor, #[]⟩) := by
    have takes : (Scope.inClass listing).Takes
        (.begin (shown.name.toList ++ ' ' :: shown.descriptor.toList)) _ :=
      .begin (by rw [operands]; exact word.1) (by rw [operands]; exact nonempty)
    simp only [operands, String.ofList_toList] at takes
    exact takes
  have finishes : (Scope.inMethod listing ⟨shown.name, shown.descriptor,
        (namedNodes shown.body).toArray⟩).Takes (.ofLine "end".toList [])
      (.inClass { listing with methods := listing.methods ++ [shown] }) := by
    refine .finish (finish_eq_ok_iff.2 ⟨?_, ?_⟩)
    · rw [List.toList_toArray]
      exact placed_namedNodes labeled
    · rw [body_namedNodes labeled]
  have first := leads_keyword (by simp) (word.isLineRest.append word.1 rest nonempty) begins
    (.inl rfl)
  have last := leads_keyword (by simp) ⟨Text.isTrimmed_nil, by simp⟩ finishes (.inr ⟨rfl, rfl⟩)
  have inner : Leads (method.body.nodes.toList.flatMap Insn.lines)
      (.inMethod listing ⟨shown.name, shown.descriptor, #[]⟩) _ :=
    leads_nodes labeled _ _ (List.nil_append _).symm nodes
  have whole := first.append (inner.append last)
  simpa [Method.lines, writeInstruction, sameName, sameDescriptor] using whole

/-! ## Classes -/

theorem leads_annotations {types : List String} (words : ∀ type ∈ types, IsWord type.toList) :
    Leads (types.map fun type => writeInstruction "annotation" [type.toList]) (.inClass listing)
      (.inClass { listing with annotations := listing.annotations ++ types }) := by
  induction types generalizing listing with
  | nil => simpa using Leads.nil
  | cons type types ih =>
    obtain ⟨word, others⟩ := List.forall_mem_cons.1 words
    have takes : (Scope.inClass listing).Takes (.ofLine "annotation".toList type.toList)
        (.inClass { listing with annotations := listing.annotations ++ [type] }) := by
      have takes : (Scope.inClass listing).Takes (.annotate type.toList) _ :=
        .annotateClass (Text.words_of_isWord word)
      rwa [String.ofList_toList] at takes
    have first := leads_keyword (by simp) word.isLineRest takes (.inl rfl)
    simpa [writeInstruction] using first.append (ih others)

theorem leads_methods {methods shown : List Method}
    (shows : List.Forall₂ MethodShownAs methods shown) :
    Leads (methods.flatMap Method.lines) (.inClass listing)
      (.inClass { listing with methods := listing.methods ++ shown }) := by
  induction shows generalizing listing with
  | nil => simpa using Leads.nil
  | cons shows _ ih => simpa using (leads_method shows).append ih

/-- The lines of a class make the class that they spell. -/
theorem leads_shown {shown : ClassListing} (shows : ClassShownAs listing shown) :
    Leads listing.lines .outside (.inClass shown) := by
  obtain ⟨⟨sameName, word⟩, ⟨sameTypes, words⟩, methods⟩ := shows
  have first := leads_declaration word
  have annotated : Leads _ (.inClass ⟨shown.name, [], []⟩) _ := leads_annotations words
  have whole := first.append (annotated.append (leads_methods methods))
  simpa [ClassListing.lines, writeInstruction, sameName, sameTypes] using whole

/-- The lines of a class that a listing can show make the class. -/
theorem leads_class (printable : listing.Printable) :
    Leads listing.lines .outside (.inClass listing) :=
  leads_shown (classShownAs_of_printable printable)

/-- A listing is read as the class that its lines make. -/
theorem parse_eq_ok_of_leads [Overflow] {shown : ClassListing}
    (leads : Leads listing.lines .outside (.inClass shown)) : parse listing.render = .ok shown := by
  obtain ⟨⟨items, itemized, runs⟩, plain⟩ := leads
  refine parse_eq_ok_iff.2 ⟨items, ?_, runs⟩
  rwa [ClassListing.render, String.toList_ofList, ← endLines_classLines, Text.lines_endLines plain]

/-- A class that a listing can show is read back from its listing. -/
theorem parse_render (printable : listing.Printable) : parse listing.render = .ok listing :=
  parse_eq_ok_of_leads (leads_class printable)

/-- A method with a table, a lookup switch and operands that could be taken for others. -/
theorem parse_render_switches :
    let nodes : Array Node :=
      #[.label ⟨0⟩, .line 7 ⟨0⟩, .var .iload 1, .tableSwitch (-1) 0 [⟨1⟩, ⟨0⟩] ⟨1⟩,
        .label ⟨1⟩, .frame "SAME", .ldc (.double 4591870180066957722), .ldc (.float 3495920758),
        .ldc (.string "L0\n:\"F"), .ldc (.type "Lp/Q;"), .field .getstatic "p/Q" "f" "J : I",
        .method .invokestatic "p/Q" "<init>" "()V", .lookupSwitch [8, -3] [⟨1⟩, ⟨2⟩] ⟨2⟩,
        .label ⟨2⟩, .simple .returnVoid]
    let listing : ClassListing := ⟨"p/Q", ["Lp/A;"], [⟨"run", "(I) V", ⟨nodes⟩⟩]⟩
    listing.Printable ∧ parse listing.render = .ok listing := by
  intro nodes listing
  have printable : listing.Printable := by decide +kernel
  exact ⟨printable, parse_render printable⟩

end Listing

end BranchSieve
