import BranchSieve.Proofs.Listing.Location

/-!
# The layout of a listing

Outside of a switch the reader passes over blank lines and comments, and it reads no line but
without the blanks at its ends. So a text that is laid out anew is read as the same class: the state
behind each line is the same but for the first line of an open switch, which only errors show.
Inside of a switch every line has to be a case, and a case starts with a digit, a sign or `default`,
so a blank line or a comment there is refused at its own place.
-/

namespace BranchSieve.Listing

open Text (isBlank splitFirst trim words)

variable {text : String} {line line' : Line} {lines front back : List (List Char)}
  {scope : Scope} {state state' : State} {listing : ClassListing} {draft : Draft}

/-- A switch is open behind the lines: its default has not come. -/
def AwaitsDefault (lines : List (List Char)) : Prop :=
  ∃ before header cases kind, lines = before ++ header :: cases ∧ OpensSwitch header kind ∧
    ∀ line ∈ cases, ¬ IsDefault line

/-- Lines that stand behind others are laid out anew. Blanks at the ends of a line come and go;
    blank lines and comments are inserted where no switch is open. -/
inductive Relaid : List (List Char) → List (List Char) → List (List Char) → Prop where
  | nil {front : List (List Char)} : Relaid front [] []
  | line {front lines lines' : List (List Char)} {line line' : List Char}
      (same : trim line' = trim line) (rest : Relaid (front ++ [line]) lines lines') :
      Relaid front (line :: lines) (line' :: lines')
  | insert {front lines lines' : List (List Char)} {line' : List Char} (skipped : isSkipped line')
      (outside : ¬ AwaitsDefault front) (rest : Relaid front lines lines') :
      Relaid front lines (line' :: lines')

/-- Blanks at either end of a line are trimmed. -/
theorem trim_append_append {before after : List Char} (blank : ∀ c ∈ before, isBlank c = true)
    (blank' : ∀ c ∈ after, isBlank c = true) (line : List Char) :
    trim (before ++ line ++ after) = trim line := by
  have behind : ∀ cs : List Char, Text.trimRight (cs ++ after) = Text.trimRight cs := by
    intro cs
    have reversed : ∀ c ∈ after.reverse, isBlank c = true := fun c mem =>
      blank' c (List.mem_reverse.1 mem)
    rw [Text.trimRight, List.reverse_append, List.dropWhile_append_of_pos reversed,
      ← Text.trimRight]
  rw [List.append_assoc, Text.trim_append_of_blank blank, trim, trim, Text.trimLeft,
    List.dropWhile_append]
  split
  · next none_left =>
    rw [List.dropWhile_eq_nil_iff.2 blank', Text.trimLeft, List.isEmpty_iff.1 none_left]
  · rw [behind, Text.trimLeft]

/-- Blanks that are added at either end of a line leave the rest to the layout. -/
theorem Relaid.pad {line : List Char} {lines lines' : List (List Char)} (before after : List Char)
    (blank : ∀ c ∈ before, isBlank c = true) (blank' : ∀ c ∈ after, isBlank c = true)
    (rest : Relaid (front ++ [line]) lines lines') :
    Relaid front (line :: lines) ((before ++ line ++ after) :: lines') :=
  .line (trim_append_append blank blank' line) rest

/-! ## What a case starts with -/

/-- A case starts with its key or with `default`. -/
theorem exists_head?_of_readCase {text : List Char} {case : Case}
    (read : readCase text = .ok case) :
    ∃ c, (trim text).head? = some c ∧ (Text.isIntegerChar c = true ∨ c = 'd') := by
  -- In front of the colon stands the key, perhaps with blanks behind it.
  have first : ∀ {before target : List Char} {c : Char} {key : List Char},
      trim text = before ++ ':' :: target → trim before = c :: key →
        (trim text).head? = some c := by
    intro before target c key split shown
    cases before with
    | nil => cases shown
    | cons c' before =>
      have solid : isBlank c' = false := (Text.isTrimmed_trim text).1 c' (by simp [split])
      have whole : trim (c' :: before) = c' :: Text.trimRight before := by
        rw [trim, Text.trimLeft_of_head? (by simpa using solid)]
        exact Text.trimRight_append_cons solid [] before
      rw [whole] at shown
      rw [split, ← (List.cons.inj shown).1]
      rfl
  rcases readCase_eq_ok_iff.1 read with
    ⟨key, label, ⟨digits, ⟨before, target, split, -, shown, -⟩, number⟩, -⟩ |
      ⟨label, ⟨before, target, split, -, shown, -⟩, -⟩
  · obtain ⟨nonempty, integer⟩ := Text.all_isIntegerChar_of_int32? number
    obtain ⟨c, rest, rfl⟩ := List.exists_cons_of_ne_nil nonempty
    exact ⟨c, first split shown, .inl (integer c List.mem_cons_self)⟩
  · exact ⟨'d', first split shown, .inr rfl⟩

/-- A case is neither blank nor a comment. -/
theorem isSkipped_of_readCase {text : List Char} {case : Case} (read : readCase text = .ok case) :
    isSkipped text = false := by
  obtain ⟨c, first, start⟩ := exists_head?_of_readCase read
  obtain ⟨rest, shown⟩ := List.head?_eq_some_iff.1 first
  have other : c ≠ '/' := by
    rintro rfl
    revert start
    decide
  simp [isSkipped, shown, List.isPrefixOf, other.symm]

/-- A line that opens a switch is no case. -/
theorem OpensSwitch.readCase_ne {text : List Char} {kind : SwitchKind}
    (opens : OpensSwitch text kind) (case : Case) : readCase text ≠ .ok case := by
  intro read
  obtain ⟨c, first, start⟩ := exists_head?_of_readCase read
  obtain ⟨operands, split, -⟩ := opens
  obtain ⟨rest, shown⟩ := List.head?_eq_some_iff.1 first
  have solid : isBlank c = false := (Text.isTrimmed_trim text).1 c first
  have keyword : (trim text).takeWhile (!isBlank ·) = kind.keyword := congrArg Prod.fst split
  have known : kind.keyword.head? = some c := by
    rw [← keyword, shown, List.takeWhile_cons_of_pos (by simp [solid]), List.head?_cons]
  cases kind with
  | table =>
    obtain rfl : 'T' = c := Option.some.inj known
    revert start
    decide
  | lookup =>
    obtain rfl : 'L' = c := Option.some.inj known
    revert start
    decide

/-! ## Where a switch is open -/

theorem OpensSwitch.isSkipped_eq {text : List Char} {kind : SwitchKind}
    (opens : OpensSwitch text kind) : isSkipped text = false := by
  obtain ⟨operands, split, -⟩ := opens
  apply isSkipped_of_splitFirst split
  · cases kind <;> decide
  · cases kind <;> decide

/-- A line that opens a switch does so. -/
theorem OpensSwitch.step [Overflow] {kind : SwitchKind} (opens : OpensSwitch line.text.toList kind)
    (read : state.step line = .ok state') :
    ∃ listing draft switch, state' = .inSwitch listing draft switch := by
  cases state with
  | ready scope =>
    obtain ⟨operands, split, -⟩ := id opens
    obtain ⟨listing, draft, -, -, same⟩ := (step_switch_iff opens.isSkipped_eq split).1 read
    exact ⟨listing, draft, _, same⟩
  | inSwitch listing draft switch =>
    obtain ⟨case, shown, -⟩ := bind_eq_ok_iff.1 read
    exact absurd (check_eq_ok_iff.1 shown) (opens.readCase_ne case)

/-- A switch stays open behind a line that is no default. -/
theorem inSwitch_of_step [Overflow] {switch : OpenSwitch}
    (read : (State.inSwitch listing draft switch).step line = .ok state')
    (noDefault : ¬ IsDefault line.text.toList) :
    ∃ listing draft switch, state' = .inSwitch listing draft switch := by
  obtain ⟨case, shown, read⟩ := bind_eq_ok_iff.1 read
  rcases readCase_eq_ok_iff.1 (check_eq_ok_iff.1 shown) with
    ⟨key, label, -, rfl⟩ | ⟨label, spells, -⟩
  · exact ⟨listing, draft, _, (pure_eq_ok_iff.1 read).symm⟩
  · exact absurd (isDefault_of_spellsTarget spells) noDefault

theorem inSwitch_of_foldlM [Overflow] {cases : List Line} {switch : OpenSwitch}
    (read : cases.foldlM State.step (.inSwitch listing draft switch) = .ok state')
    (noDefault : ∀ line ∈ cases, ¬ IsDefault line.text.toList) :
    ∃ listing draft switch, state' = .inSwitch listing draft switch := by
  induction cases generalizing listing draft switch with
  | nil => exact ⟨listing, draft, switch, (pure_eq_ok_iff.1 read).symm⟩
  | cons line cases ih =>
    obtain ⟨here, others⟩ := List.forall_mem_cons.1 noDefault
    rw [List.foldlM_cons, bind_eq_ok_iff] at read
    obtain ⟨next, first, read⟩ := read
    obtain ⟨_, _, _, rfl⟩ := inSwitch_of_step first here
    exact ih read others

/-- Behind lines that are read, a switch is open exactly if its default has not come. -/
theorem awaitsDefault_iff [Overflow] {lines : List Line}
    (read : lines.foldlM State.step State.initial = .ok state) :
    AwaitsDefault (lines.map (·.text.toList)) ↔
      ∃ listing draft switch, state = .inSwitch listing draft switch := by
  constructor
  · rintro ⟨_, _, _, kind, split, opens, noDefault⟩
    obtain ⟨before, others, rfl, rfl, behind⟩ := List.map_eq_append_iff.1 split
    obtain ⟨header, cases, rfl, rfl, rfl⟩ := List.map_eq_cons_iff.1 behind
    rw [List.foldlM_append, bind_eq_ok_iff] at read
    obtain ⟨here, -, read⟩ := read
    rw [List.foldlM_cons, bind_eq_ok_iff] at read
    obtain ⟨next, first, read⟩ := read
    obtain ⟨_, _, _, rfl⟩ := opens.step first
    exact inSwitch_of_foldlM read fun line mem => noDefault _ (List.mem_map_of_mem mem)
  · rintro ⟨listing, draft, switch, rfl⟩
    obtain ⟨before, cases, kind, rfl, -, -, opens, spelled⟩ := exists_header_of_foldlM read
    refine ⟨before.map (·.text.toList), _, cases.map (·.text.toList), kind, ?_, opens, ?_⟩
    · rw [List.map_append, List.map_cons]
    · intro text mem
      obtain ⟨line, inside, rfl⟩ := List.mem_map.1 mem
      obtain ⟨key, label, spells⟩ := spelled line inside
      exact not_isDefault_of_spellsCase spells

/-! ## Lines laid out anew -/

/-- The same is open, but for the first line of a switch. -/
inductive State.Resembles : State → State → Prop where
  | ready (scope : Scope) : Resembles (.ready scope) (.ready scope)
  | inSwitch (listing : ClassListing) (draft : Draft) (switch : OpenSwitch) (header : Line) :
      Resembles (.inSwitch listing draft switch) (.inSwitch listing draft { switch with header })

/-- A check of either line ends alike, but for the line that an error names. -/
theorem liftRel_check_lines {α β : Type} {results : α → β → Prop} {result : Except Fault α}
    {other : Except Fault β} (line line' : Line) (alike : LiftRel Eq results result other) :
    LiftRel (fun _ _ => True) results (line.check result) (line'.check other) :=
  alike.mapError fun _ _ _ => trivial

theorem read_eq_of_trim {text text' : List Char} (same : trim text' = trim text) :
    Statement.read text' = Statement.read text := by
  rw [Statement.read, Statement.read, same]

theorem readCase_eq_of_trim {text text' : List Char} (same : trim text' = trim text) :
    readCase text' = readCase text := by
  rw [readCase, readCase, same]

theorem liftRel_beginMethod (scope : Scope) (line line' : Line) (operands : List Char) :
    LiftRel (fun _ _ => True) Eq (scope.beginMethod line operands)
      (scope.beginMethod line' operands) := by
  cases scope with
  | outside => exact .error trivial
  | inClass listing =>
    simp only [Scope.beginMethod]
    split
    · exact .error trivial
    · exact .ok rfl
  | inMethod listing draft => exact .error trivial

theorem liftRel_endMethod (scope : Scope) (line line' : Line) :
    LiftRel (fun _ _ => True) Eq (scope.endMethod line) (scope.endMethod line') := by
  cases scope with
  | inMethod listing draft =>
    rw [Scope.endMethod, Scope.endMethod]
    cases draft.finish with
    | error error => exact .error trivial
    | ok method => exact .ok rfl
  | _ => exact .error trivial

/-- A switch is opened by either line. -/
theorem liftRel_addInstruction (scope : Scope) (line line' : Line) (mnemonic operands : List Char) :
    LiftRel Eq State.Resembles (scope.addInstruction line mnemonic operands)
      (scope.addInstruction line' mnemonic operands) := by
  cases scope with
  | inMethod listing draft =>
    refine (LiftRel.refl (readInstruction mnemonic operands)).bind fun instruction _ same => ?_
    subst same
    cases instruction with
    | node node =>
      refine (LiftRel.refl (draft.add node)).bind fun next _ same => ?_
      subst same
      exact .ok (.ready (.inMethod listing next))
    | switch kind => exact .ok (.inSwitch listing draft ⟨line, kind, []⟩ line')
  | _ => exact .error rfl

theorem liftRel_scope_step (scope : Scope)
    (same : trim line'.text.toList = trim line.text.toList) :
    LiftRel (fun _ _ => True) State.Resembles (scope.step line) (scope.step line') := by
  have ready :
      ∀ next next' : Scope, next = next' → State.Resembles (.ready next) (.ready next') := by
    rintro next _ rfl
    exact .ready next
  unfold Scope.step
  rw [read_eq_of_trim same]
  cases Statement.read line.text.toList with
  | blank => exact .ok (.ready scope)
  | declareClass operands =>
    exact (liftRel_check_lines line line' (.refl (scope.declareClass operands))).map ready
  | annotate operands =>
    exact (liftRel_check_lines line line' (.refl (scope.annotate operands))).map ready
  | beginMethod operands => exact (liftRel_beginMethod scope line line' operands).map ready
  | endMethod => exact (liftRel_endMethod scope line line').map ready
  | instruction mnemonic operands =>
    exact liftRel_check_lines line line' (liftRel_addInstruction scope line line' mnemonic operands)

/-- A line with other blanks at its ends leads on alike. -/
theorem State.Resembles.step [Overflow] (alike : state.Resembles state')
    (same : trim line'.text.toList = trim line.text.toList) :
    LiftRel (fun _ _ => True) State.Resembles (state.step line) (state'.step line') := by
  cases alike with
  | ready scope => exact liftRel_scope_step scope same
  | inSwitch listing draft switch header =>
    rw [State.step, State.step, readCase_eq_of_trim same]
    refine (liftRel_check_lines line line' (.refl (readCase line.text.toList))).bind
      fun case _ same => ?_
    subst same
    cases case with
    | entry key label => exact .ok (.inSwitch listing draft (switch.push key label) header)
    | otherwise label =>
      refine (liftRel_check_lines switch.header header (.refl (switch.close label))).bind
        fun node _ same => ?_
      subst same
      exact .ok (.ready (.inMethod listing (draft.push node)))

theorem step_of_isSkipped [Overflow] (skipped : isSkipped line.text.toList = true) :
    (State.ready scope).step line = .ok (.ready scope) := by
  change scope.step line = _
  rw [Scope.step, read_of_isSkipped skipped]

/-- Lines that are laid out anew lead to the same scope. -/
theorem Relaid.foldlM [Overflow] {lines lines' : List (List Char)}
    (relaid : Relaid front lines lines') {before numbered numbered' : List Line}
    (passed : before.map (·.text.toList) = front)
    (reached : before.foldlM State.step State.initial = .ok state) (alike : state.Resembles state')
    (texts : numbered.map (·.text.toList) = lines) (texts' : numbered'.map (·.text.toList) = lines')
    (read : numbered.foldlM State.step state = .ok (.ready scope)) :
    numbered'.foldlM State.step state' = .ok (.ready scope) := by
  induction relaid generalizing before numbered numbered' state state' with
  | nil =>
    obtain rfl := List.map_eq_nil_iff.1 texts
    obtain rfl := List.map_eq_nil_iff.1 texts'
    obtain rfl := pure_eq_ok_iff.1 read
    cases alike
    rfl
  | line same _ ih =>
    obtain ⟨line, numbered, rfl, rfl, others⟩ := List.map_eq_cons_iff.1 texts
    obtain ⟨line', numbered', rfl, rfl, others'⟩ := List.map_eq_cons_iff.1 texts'
    rw [List.foldlM_cons, bind_eq_ok_iff] at read
    obtain ⟨next, here, read⟩ := read
    have step := alike.step same
    rw [here] at step
    generalize there : state'.step line' = result at step
    cases step with
    | ok resembles =>
      rw [List.foldlM_cons, there, ok_bind]
      have passed' : (before ++ [line]).map (·.text.toList) =
          before.map (·.text.toList) ++ [line.text.toList] := List.map_append
      have reached' : (before ++ [line]).foldlM State.step State.initial = .ok next := by
        rw [List.foldlM_append, reached, ok_bind, List.foldlM_cons, here]
        rfl
      subst passed
      exact ih passed' reached' resembles others others' read
  | insert skipped outside _ ih =>
    obtain ⟨line', numbered', rfl, rfl, others'⟩ := List.map_eq_cons_iff.1 texts'
    have stays : state'.step line' = .ok state' := by
      cases alike with
      | ready scope => exact step_of_isSkipped skipped
      | inSwitch listing draft switch header =>
        rw [← passed] at outside
        exact absurd ((awaitsDefault_iff reached).2 ⟨listing, draft, switch, rfl⟩) outside
    rw [List.foldlM_cons, stays, ok_bind]
    exact ih passed reached alike texts others' read

/-! ## A line in a switch -/

end BranchSieve.Listing
