import BranchSieve.Proofs.Listing.RoundTrip

/-!
# Listings one behind the other

A text that is read as a class ends with the class open and nothing else: no method, no switch and
no label of it. So what stands behind it is read as if it stood behind a line that declares a class,
with the annotations and methods of the first class in front of the others, and with line numbers
that go on. The two runs are compared step by step: a scope follows another one if it has the same
open parts behind the parts of the first class.
-/

namespace BranchSieve

/-- The class with the annotations and methods of another one behind its own. -/
def ClassListing.append (front back : ClassListing) : ClassListing :=
  ⟨front.name, front.annotations ++ back.annotations, front.methods ++ back.methods⟩

namespace Listing

open Text (IsWord)

/-- The line with as many others in front of it. -/
def Line.shift (count : Nat) (line : Line) : Line :=
  { line with number := line.number + count }

/-- The error with its line shifted, if it has one. -/
def ParseError.shift (count : Nat) : ParseError → ParseError
  | .atLine line fault => .atLine (line.shift count) fault
  | .undefinedLabel method label => .undefinedLabel method label
  | .unterminatedMethod method => .unterminatedMethod method
  | .missingClass => .missingClass

/-- A scope has the parts of a class in front of those of another scope. -/
inductive Scope.Follows (front : ClassListing) : Scope → Scope → Prop where
  | inClass (listing : ClassListing) :
      Follows front (.inClass listing) (.inClass (front.append listing))
  | inMethod (listing : ClassListing) (draft : Draft) :
      Follows front (.inMethod listing draft) (.inMethod (front.append listing) draft)

/-- The same for what is open between two lines, where the lines are shifted. -/
inductive State.Follows (front : ClassListing) (count : Nat) : State → State → Prop where
  | ready {scope scope' : Scope} (follows : scope.Follows front scope') :
      Follows front count (.ready scope) (.ready scope')
  | inSwitch (listing : ClassListing) (draft : Draft) (switch : OpenSwitch) :
      Follows front count (.inSwitch listing draft switch)
        (.inSwitch (front.append listing) draft { switch with header := switch.header.shift count })

/-- An error, and the same error on a shifted line. -/
def Shifted (count : Nat) (error error' : ParseError) : Prop := error' = error.shift count

section Step

variable {front : ClassListing} {count : Nat} {line : Line} {scope scope' : Scope}
  {state state' : State} {operands mnemonic : List Char}

theorem text_shift : (line.shift count).text = line.text := rfl

/-- The same check of a line and of the shifted line ends alike. -/
theorem liftRel_check {α β : Type} {results : α → β → Prop} {result : Except Fault α}
    {other : Except Fault β} (alike : LiftRel Eq results result other) :
    LiftRel (Shifted count) results (line.check result) ((line.shift count).check other) := by
  apply alike.mapError
  intro fault fault' same
  subst same
  rfl

theorem Scope.Follows.declareClass (follows : scope.Follows front scope') :
    LiftRel Eq (Scope.Follows front) (scope.declareClass operands)
      (scope'.declareClass operands) := by
  cases follows with
  | inClass listing => exact .error rfl
  | inMethod listing draft => exact .error rfl

theorem append_annotate (listing : ClassListing) (types : List String) :
    { front.append listing with annotations := (front.append listing).annotations ++ types } =
      front.append { listing with annotations := listing.annotations ++ types } := by
  simp [ClassListing.append]

theorem append_method (listing : ClassListing) (methods : List Method) :
    { front.append listing with methods := (front.append listing).methods ++ methods } =
      front.append { listing with methods := listing.methods ++ methods } := by
  simp [ClassListing.append]

theorem Scope.Follows.annotate (follows : scope.Follows front scope') :
    LiftRel Eq (Scope.Follows front) (scope.annotate operands) (scope'.annotate operands) := by
  cases read : readOneWord operands with
  | error fault => cases follows <;> simpa [Scope.annotate, read] using .error rfl
  | ok type =>
    cases follows with
    | inClass listing =>
      rw [Scope.annotate, Scope.annotate, read]
      refine .ok ?_
      rw [append_annotate]
      exact .inClass _
    | inMethod listing draft =>
      rw [Scope.annotate, Scope.annotate, read]
      refine .ok ?_
      rw [append_annotate]
      exact .inMethod _ draft

/-- No method begins where another one is open, and the error names that one. -/
theorem Scope.Follows.beginMethod (follows : scope.Follows front scope') :
    LiftRel (Shifted count) (Scope.Follows front) (scope.beginMethod line operands)
      (scope'.beginMethod (line.shift count) operands) := by
  cases follows with
  | inClass listing =>
    simp only [Scope.beginMethod]
    split
    · exact .error rfl
    · exact .ok (.inMethod listing _)
  | inMethod listing draft => exact .error rfl

/-- A method that does not end is told by its name, on no line. -/
theorem liftRel_finish (draft : Draft) : LiftRel (Shifted count) Eq draft.finish draft.finish := by
  unfold Draft.finish
  split
  · exact .error rfl
  · exact .ok rfl

/-- A method is finished from its own draft, so its labels are numbered as if it stood alone. -/
theorem Scope.Follows.endMethod (follows : scope.Follows front scope') :
    LiftRel (Shifted count) (Scope.Follows front) (scope.endMethod line)
      (scope'.endMethod (line.shift count)) := by
  cases follows with
  | inClass listing => exact .error rfl
  | inMethod listing draft =>
    refine (liftRel_finish draft).bind fun method _ same => ?_
    subst same
    rw [append_method]
    exact .ok (.inClass _)

/-- An instruction line changes the draft alone, or opens a switch at its own line. -/
theorem Scope.Follows.addInstruction (follows : scope.Follows front scope') :
    LiftRel Eq (State.Follows front count) (scope.addInstruction line mnemonic operands)
      (scope'.addInstruction (line.shift count) mnemonic operands) := by
  cases follows with
  | inClass listing => exact .error rfl
  | inMethod listing draft =>
    refine (LiftRel.refl (readInstruction mnemonic operands)).bind fun instruction _ same => ?_
    subst same
    cases instruction with
    | node node =>
      refine (LiftRel.refl (draft.add node)).bind fun next _ same => ?_
      subst same
      exact .ok (.ready (.inMethod listing next))
    | switch kind => exact .ok (.inSwitch listing draft ⟨line, kind, []⟩)

/-- A line outside of a switch keeps what follows. -/
theorem Scope.Follows.step (follows : scope.Follows front scope') :
    LiftRel (Shifted count) (State.Follows front count) (scope.step line)
      (scope'.step (line.shift count)) := by
  have ready : ∀ scope scope', Scope.Follows front scope scope' →
      State.Follows front count (.ready scope) (.ready scope') := fun _ _ follows => .ready follows
  unfold Scope.step
  rw [text_shift]
  cases Statement.read line.text.toList with
  | blank => exact .ok (.ready follows)
  | declareClass operands => exact (liftRel_check follows.declareClass).map ready
  | annotate operands => exact (liftRel_check follows.annotate).map ready
  | beginMethod operands => exact follows.beginMethod.map ready
  | endMethod => exact follows.endMethod.map ready
  | instruction mnemonic operands => exact liftRel_check follows.addInstruction

/-- A line keeps what follows. -/
theorem State.Follows.step [Overflow] (follows : state.Follows front count state') :
    LiftRel (Shifted count) (State.Follows front count) (state.step line)
      (state'.step (line.shift count)) := by
  cases follows with
  | ready follows => exact follows.step
  | inSwitch listing draft switch =>
    refine (liftRel_check (LiftRel.refl (readCase line.text.toList))).bind fun case _ same => ?_
    subst same
    cases case with
    | entry key label => exact .ok (.inSwitch listing draft (switch.push key label))
    | otherwise label =>
      refine (liftRel_check (LiftRel.refl (switch.close label))).bind fun node _ same => ?_
      subst same
      exact .ok (.ready (.inMethod listing (draft.push node)))

/-- A run keeps what follows. -/
theorem State.Follows.foldlM [Overflow] {lines : List Line}
    (follows : state.Follows front count state') :
    LiftRel (Shifted count) (State.Follows front count) (lines.foldlM State.step state)
      ((lines.map (Line.shift count)).foldlM State.step state') := by
  induction lines generalizing state state' with
  | nil => exact .ok follows
  | cons line lines ih =>
    rw [List.map_cons, List.foldlM_cons, List.foldlM_cons]
    exact follows.step.bind fun _ _ follows => ih follows

theorem State.Follows.finish (follows : state.Follows front count state') :
    LiftRel (Shifted count) (fun listing whole => whole = front.append listing) state.finish
      state'.finish := by
  cases follows with
  | ready follows =>
    cases follows with
    | inClass listing => exact .ok rfl
    | inMethod listing draft => exact .error rfl
  | inSwitch listing draft switch => exact .error rfl

end Step

/-! ## Texts -/

variable {front back name : String} {listing : ClassListing}

theorem Line.shift_shift (first second : Nat) (line : Line) :
    (line.shift first).shift second = line.shift (first + second) := by
  rw [Line.shift, Line.shift, Line.shift, Nat.add_assoc]

theorem numberedLines_append (ended : front.toList.getLast? = some '\n') :
    numberedLines (front ++ back) =
      numberedLines front ++
        (numberedLines back).map (Line.shift (Text.lines front.toList).length) := by
  rw [numberedLines, numberedLines, numberedLines, String.toList_append, Text.lines_append ended,
    List.zipIdx_append, List.map_append, Nat.add_comm, ← List.map_snd_add_zipIdx_eq_zipIdx,
    List.map_map, List.map_map]
  rfl

/-- What stands behind an ended text is read from the class of that text on. -/
theorem parse_append_eq [Overflow] (accepted : parse front = .ok listing)
    (ended : front.toList.getLast? = some '\n') :
    parse (front ++ back) =
      ((numberedLines back).map (Line.shift (Text.lines front.toList).length)).foldlM State.step
        (.ready (.inClass listing)) >>= State.finish := by
  rw [parse, numberedLines_append ended, List.foldlM_append, parse_eq_ok_iff_foldlM.1 accepted]
  rfl

theorem render_declaration : ClassListing.render ⟨name, [], []⟩ = "class " ++ name ++ "\n" := by
  rw [← String.toList_inj]
  simp [ClassListing.render, ClassListing.write, writeInstruction]

/-- A line that declares a class is read as a class with nothing else. -/
theorem parse_declaration [Overflow] (token : IsWord name.toList) :
    parse ("class " ++ name ++ "\n") = .ok ⟨name, [], []⟩ := by
  rw [← render_declaration]
  apply parse_eq_ok_of_leads
  simpa [ClassListing.lines, writeInstruction] using leads_declaration token

theorem length_lines_declaration (token : IsWord name.toList) :
    (Text.lines ("class " ++ name ++ "\n").toList).length = 1 := by
  have free : '\n' ∉ "class ".toList ++ name.toList := by
    rw [List.mem_append, not_or]
    exact ⟨by decide, token.isLineRest.2⟩
  rw [String.toList_append, String.toList_append, show "\n".toList = '\n' :: [] from rfl,
    Text.lines_append_newline _ _ free]
  rfl

/-- An accepted text has a line. -/
theorem length_lines_pos [Overflow] (accepted : parse front = .ok listing) :
    0 < (Text.lines front.toList).length := by
  rw [List.length_pos_iff]
  intro empty
  have none_read : numberedLines front = [] := by rw [numberedLines, empty]; rfl
  have read := parse_eq_ok_iff_foldlM.1 accepted
  rw [none_read] at read
  cases read

/-- The text behind an accepted one ends as it does behind the declaration of a class. -/
theorem liftRel_parse_append [Overflow] (back : String) (accepted : parse front = .ok listing)
    (ended : front.toList.getLast? = some '\n') (token : IsWord name.toList) :
    LiftRel (Shifted ((Text.lines front.toList).length - 1))
      (fun other whole => whole = listing.append other) (parse ("class " ++ name ++ "\n" ++ back))
      (parse (front ++ back)) := by
  have declared : ("class " ++ name ++ "\n").toList.getLast? = some '\n' := by
    rw [String.toList_append]
    exact List.getLast?_concat
  have bare : listing.append ⟨name, [], []⟩ = listing := by simp [ClassListing.append]
  have start : State.Follows listing ((Text.lines front.toList).length - 1)
      (.ready (.inClass ⟨name, [], []⟩)) (.ready (.inClass (listing.append ⟨name, [], []⟩))) :=
    .ready (.inClass _)
  rw [bare] at start
  -- The declaration is one line, so the lines behind it are shifted by one already.
  have lines : ((numberedLines back).map (Line.shift 1)).map
      (Line.shift ((Text.lines front.toList).length - 1)) =
        (numberedLines back).map (Line.shift (Text.lines front.toList).length) := by
    rw [List.map_map]
    refine List.map_congr_left fun line _ => ?_
    rw [Function.comp_apply, Line.shift_shift,
      Nat.add_sub_of_le (Nat.succ_le_of_lt (length_lines_pos accepted))]
  rw [parse_append_eq accepted ended, parse_append_eq (parse_declaration token) declared,
    length_lines_declaration token, ← lines]
  exact start.foldlM.bind fun _ _ follows => follows.finish

/-- What stands behind an accepted text is read as if it stood behind the declaration of a class.
    If it is refused there, the whole is refused for the same cause, whose line stands behind all
    lines of the accepted text and not behind the declaration alone. -/
theorem parse_append [Overflow] (accepted : parse front = .ok listing)
    (ended : front.toList.getLast? = some '\n') (token : IsWord name.toList) :
    parse (front ++ back) =
      match parse ("class " ++ name ++ "\n" ++ back) with
      | .ok other => .ok ⟨listing.name, listing.annotations ++ other.annotations,
          listing.methods ++ other.methods⟩
      | .error error => .error (error.shift ((Text.lines front.toList).length - 1)) := by
  have alike := liftRel_parse_append back accepted ended token
  generalize parse (front ++ back) = whole at alike ⊢
  generalize parse ("class " ++ name ++ "\n" ++ back) = alone at alike ⊢
  cases alike with
  | error related => exact congrArg Except.error related
  | ok related => exact congrArg Except.ok related

/-- Both methods call their label `L0`; an opcode that does not exist is told by its line in the
    whole text. -/
theorem parse_append_twins :
    let front := "// twins\nclass C\nmethod f ()V\n GOTO L0\n L0\nend\n"
    let back := "annotation LA;\nmethod g ()V\n L1\n GOTO L0\n L0\nend\n"
    let first : Method := ⟨"f", "()V", ⟨#[.jump .goto ⟨0⟩, .label ⟨0⟩]⟩⟩
    let second : Method := ⟨"g", "()V", ⟨#[.label ⟨0⟩, .jump .goto ⟨1⟩, .label ⟨1⟩]⟩⟩
    parse front = .ok ⟨"C", [], [first]⟩ ∧ front.toList.getLast? = some '\n' ∧
      IsWord "D".toList ∧ parse ("class " ++ "D" ++ "\n" ++ back) = .ok ⟨"D", ["LA;"], [second]⟩ ∧
      parse (front ++ back) = .ok ⟨"C", ["LA;"], [first, second]⟩ ∧
      parse ("class " ++ "D" ++ "\n" ++ (back ++ "method h ()V\nNOPE\n")) =
        .error (.atLine ⟨9, "NOPE"⟩ (.unknownOpcode "NOPE")) ∧
      parse (front ++ (back ++ "method h ()V\nNOPE\n")) =
        .error (.atLine ⟨14, "NOPE"⟩ (.unknownOpcode "NOPE")) := by
  intro front back first second
  have accepted : parse front = .ok ⟨"C", [], [first]⟩ := by decide +kernel
  have ended : front.toList.getLast? = some '\n' := by decide +kernel
  have token : IsWord "D".toList := by decide
  have alone : parse ("class " ++ "D" ++ "\n" ++ back) = .ok ⟨"D", ["LA;"], [second]⟩ := by
    decide +kernel
  have refused : parse ("class " ++ "D" ++ "\n" ++ (back ++ "method h ()V\nNOPE\n")) =
      .error (.atLine ⟨9, "NOPE"⟩ (.unknownOpcode "NOPE")) := by decide +kernel
  have lines : (Text.lines front.toList).length = 6 := by decide +kernel
  refine ⟨accepted, ended, token, alone, ?_, refused, ?_⟩
  · rw [parse_append accepted ended token, alone]
    rfl
  · rw [parse_append accepted ended token, refused, lines]
    rfl

end Listing

end BranchSieve
