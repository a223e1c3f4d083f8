import BranchSieve.Proofs.Listing.Run

/-!
# What a line is refused for

The reader refuses a line for a fault, which it tells with the line or with the first line of the
open switch, or for the method that is open: because another method begins, or because it ends
without one of its labels. A fault that names an opcode names the first word of the line.
-/

namespace BranchSieve.Listing

open Text (splitFirst trim words)

variable {line : Line} {scope : Scope} {state : State} {listing : ClassListing} {draft : Draft}
  {switch : OpenSwitch} {fault : Fault} {error : ParseError} {method label : String}

/-! ## Faults of operands -/

/-- Neither does the fault name an opcode, nor does it say that a counter stops the program. -/
def Fault.isPlain : Fault → Bool
  | .unknownOpcode _ | .keyOverflow => false
  | _ => true

section Plain

variable {α β : Type} {result : Except Fault α}

/-- If a computation fails, it is for a plain fault. -/
def FailsPlainly (result : Except Fault α) : Prop :=
  ∀ fault, result = .error fault → fault.isPlain = true

theorem failsPlainly_ok (a : α) : FailsPlainly (.ok a) := nofun

theorem failsPlainly_error (plain : fault.isPlain = true) :
    FailsPlainly (.error fault : Except Fault α) := by
  intro other failed
  cases failed
  exact plain

theorem FailsPlainly.bind (plain : FailsPlainly result) {next : α → Except Fault β}
    (goOn : ∀ a, FailsPlainly (next a)) : FailsPlainly (result >>= next) := by
  intro fault failed
  rcases bind_eq_error_iff.1 failed with here | ⟨a, -, later⟩
  · exact plain fault here
  · exact goOn a fault later

theorem FailsPlainly.map (plain : FailsPlainly result) (f : α → β) :
    FailsPlainly (result.map f) := by
  intro fault failed
  exact plain fault (map_eq_error_iff.1 failed)

theorem failsPlainly_readNumber (read? : List Char → Option α) (token : List Char) :
    FailsPlainly (readNumber read? token) := by
  unfold readNumber
  split
  · exact failsPlainly_ok _
  · exact failsPlainly_error rfl

theorem failsPlainly_readOneWord (operands : List Char) : FailsPlainly (readOneWord operands) := by
  unfold readOneWord
  split
  · exact failsPlainly_ok _
  · exact failsPlainly_error rfl

theorem failsPlainly_readLabel (token : List Char) : FailsPlainly (readLabel token) := by
  unfold readLabel
  split
  · exact failsPlainly_ok _
  · exact failsPlainly_error rfl

theorem failsPlainly_readMember (reference : List Char) : FailsPlainly (readMember reference) := by
  unfold readMember
  split
  · exact failsPlainly_ok _
  · exact failsPlainly_error rfl

theorem failsPlainly_readImmediate (op : Opcode) (token : List Char) :
    FailsPlainly (readImmediate op token) := by
  unfold readImmediate
  split
  · exact failsPlainly_ok _
  · exact failsPlainly_readNumber _ token

theorem failsPlainly_readConstant (operands : List Char) :
    FailsPlainly (readConstant operands) := by
  unfold readConstant
  split
  · split
    · exact failsPlainly_ok _
    · exact failsPlainly_error rfl
  · split
    · exact failsPlainly_ok _
    · unfold readNumericConstant
      split
      · exact (failsPlainly_readNumber _ _).map _
      · split
        · exact (failsPlainly_readNumber _ _).map _
        · split
          · exact (failsPlainly_readNumber _ _).map _
          · exact (failsPlainly_readNumber _ _).map _

theorem failsPlainly_readOperands (op : Opcode) (operands : List Char) :
    FailsPlainly (readOperands op operands) := by
  have word := failsPlainly_readOneWord operands
  unfold readOperands
  cases op.operandKind with
  | none =>
    dsimp only
    split
    · exact failsPlainly_ok _
    · exact failsPlainly_error rfl
  | int =>
    exact word.bind fun token =>
      (failsPlainly_readImmediate op token).bind fun _ => failsPlainly_ok _
  | ldc => exact (failsPlainly_readConstant operands).bind fun _ => failsPlainly_ok _
  | var =>
    exact word.bind fun token => (failsPlainly_readNumber _ token).bind fun _ => failsPlainly_ok _
  | iinc =>
    dsimp only
    split
    · next slot increment _ =>
      exact (failsPlainly_readNumber _ slot).bind fun _ =>
        (failsPlainly_readNumber _ increment).bind fun _ => failsPlainly_ok _
    · exact failsPlainly_error rfl
  | jump =>
    exact word.bind fun token => (failsPlainly_readLabel token).bind fun _ => failsPlainly_ok _
  | tableSwitch =>
    dsimp only
    split
    · exact failsPlainly_ok _
    · exact failsPlainly_error rfl
  | lookupSwitch =>
    dsimp only
    split
    · exact failsPlainly_ok _
    · exact failsPlainly_error rfl
  | field =>
    dsimp only
    split
    · exact (failsPlainly_readMember _).bind fun _ => failsPlainly_ok _
    · exact failsPlainly_error rfl
  | method =>
    dsimp only
    split
    · exact (failsPlainly_readMember _).bind fun _ => failsPlainly_ok _
    · exact failsPlainly_error rfl
  | invokeDynamic =>
    dsimp only
    split
    · exact failsPlainly_ok _
    · exact failsPlainly_error rfl
  | type => exact word.bind fun _ => failsPlainly_ok _
  | multiANewArray =>
    dsimp only
    split
    · exact (failsPlainly_readNumber _ _).bind fun _ => failsPlainly_ok _
    · exact failsPlainly_error rfl

theorem failsPlainly_readLineNumber (operands : List Char) :
    FailsPlainly (readLineNumber operands) :=
  (failsPlainly_readNumber _ _).bind fun _ =>
    (failsPlainly_readLabel _).bind fun _ => failsPlainly_ok _

theorem failsPlainly_readCase (line : List Char) : FailsPlainly (readCase line) := by
  unfold readCase
  split
  · refine (failsPlainly_readLabel _).bind fun _ => ?_
    split
    · exact failsPlainly_ok _
    · exact (failsPlainly_readNumber _ _).bind fun _ => failsPlainly_ok _
  · exact failsPlainly_error rfl

theorem failsPlainly_add (draft : Draft) (node : Insn String) : FailsPlainly (draft.add node) := by
  unfold Draft.add
  split
  · split
    · exact failsPlainly_error rfl
    · exact failsPlainly_ok _
  · exact failsPlainly_ok _

theorem failsPlainly_declareClass (scope : Scope) (operands : List Char) :
    FailsPlainly (scope.declareClass operands) := by
  cases scope with
  | outside => exact (failsPlainly_readOneWord operands).bind fun _ => failsPlainly_ok _
  | inClass listing => exact failsPlainly_error rfl
  | inMethod listing draft => exact failsPlainly_error rfl

theorem failsPlainly_annotate (scope : Scope) (operands : List Char) :
    FailsPlainly (scope.annotate operands) := by
  have word := failsPlainly_readOneWord operands
  cases scope with
  | outside => exact failsPlainly_error rfl
  | inClass listing => exact (word.bind fun _ => failsPlainly_ok _).map _
  | inMethod listing draft => exact (word.bind fun _ => failsPlainly_ok _).map _

/-- An instruction is refused for a plain fault, or its first word is an unknown opcode. -/
theorem isPlain_or_eq_of_readInstruction {keyword operands : List Char}
    (h : readInstruction keyword operands = .error fault) :
    fault.isPlain = true ∨ fault = .unknownOpcode (String.ofList keyword) := by
  unfold readInstruction at h
  split at h
  · cases h
  · split at h
    · exact .inl ((failsPlainly_readLineNumber operands).map _ fault h)
    · split at h
      · cases h
      · split at h
        · exact .inl (failsPlainly_readOperands _ operands fault h)
        · cases h
          exact .inr rfl

theorem isPlain_or_eq_of_addInstruction {keyword operands : List Char}
    (h : scope.addInstruction line keyword operands = .error fault) :
    fault.isPlain = true ∨ fault = .unknownOpcode (String.ofList keyword) := by
  cases scope with
  | outside => exact .inl (failsPlainly_error rfl fault h)
  | inClass listing => exact .inl (failsPlainly_error rfl fault h)
  | inMethod listing draft =>
    rcases bind_eq_error_iff.1 h with unread | ⟨instruction, -, h⟩
    · exact isPlain_or_eq_of_readInstruction unread
    · cases instruction with
      | node node =>
        rcases bind_eq_error_iff.1 h with twice | ⟨next, -, h⟩
        · exact .inl (failsPlainly_add draft node fault twice)
        · cases h
      | switch kind => cases h

end Plain

/-! ## Lines by their first words -/

/-- An instruction line is cut behind its first word. -/
theorem split_of_read {cs keyword operands : List Char}
    (h : Statement.read cs = .instruction keyword operands) :
    trim cs ≠ [] ∧ splitFirst (trim cs) = (keyword, operands) := by
  unfold Statement.read at h
  dsimp only at h
  split at h
  · cases h
  · next shown =>
    refine ⟨(not_or.1 shown).1, ?_⟩
    split at h
    · cases h
    split at h
    · cases h
    split at h
    · cases h
    split at h
    · cases h
    · cases h
      rfl

/-- What a fault says about the line that it is told with, and about counters. -/
structure Fault.Fits [overflow : Overflow] (fault : Fault) (line : Line) : Prop where
  opcode : ∀ mnemonic, fault = .unknownOpcode mnemonic →
    (words line.text.toList).head? = some mnemonic.toList
  stops : fault = .keyOverflow → overflow = .stops

section Fits

variable [overflow : Overflow]

theorem Fault.fits_of_isPlain (plain : fault.isPlain = true) (line : Line) : fault.Fits line where
  opcode := by
    rintro mnemonic rfl
    cases plain
  stops := by
    rintro rfl
    cases plain

end Fits

/-- The first word of a line says that a method ends. -/
def EndsMethod (line : List Char) : Prop := (splitFirst (trim line)).1 = "end".toList

theorem read_eq_endMethod_iff {text : List Char} :
    Statement.read text = .endMethod ↔ EndsMethod text := by
  rcases split : splitFirst (trim text) with ⟨keyword, operands⟩
  have same : EndsMethod text ↔ keyword = "end".toList := by rw [EndsMethod, split]
  rw [same]
  by_cases skipped : isSkipped text = true
  · rw [read_of_isSkipped skipped]
    refine iff_of_false nofun fun isEnd => ?_
    subst isEnd
    rw [isSkipped_of_splitFirst split (by decide) (by decide)] at skipped
    cases skipped
  · rw [read_of_split (Bool.eq_false_iff.2 skipped) split]
    constructor
    · intro read
      split_ifs at read with _ _ _ isEnd
      exact isEnd
    · rintro rfl
      rfl

/-! ## Refusals -/

section Refusals

variable [overflow : Overflow]

/-- What a line outside of a switch is refused for. -/
inductive Scope.Refuses : Scope → Line → ParseError → Prop where
  | fault {scope : Scope} {line : Line} {fault : Fault} (fits : fault.Fits line) :
      Refuses scope line (.atLine line fault)
  /-- Another method begins. -/
  | begin {listing : ClassListing} {draft : Draft} {line : Line} :
      Refuses (.inMethod listing draft) line (.unterminatedMethod draft.name)
  /-- The method ends without one of its labels. -/
  | finish {listing : ClassListing} {draft : Draft} {line : Line} {label : String}
      (ends : EndsMethod line.text.toList) (undefined : draft.undefinedLabel? = some label) :
      Refuses (.inMethod listing draft) line (.undefinedLabel draft.name label)

/-- What a line is refused for. -/
inductive State.Refuses : State → Line → ParseError → Prop where
  | ready {scope : Scope} {line : Line} {error : ParseError} (refuses : scope.Refuses line error) :
      Refuses (.ready scope) line error
  /-- The line is no case of the switch. -/
  | case {listing : ClassListing} {draft : Draft} {switch : OpenSwitch} {line : Line}
      {fault : Fault} (fits : fault.Fits line) :
      Refuses (.inSwitch listing draft switch) line (.atLine line fault)
  /-- The line closes the switch, and its cases make no switch. -/
  | switch {listing : ClassListing} {draft : Draft} {switch : OpenSwitch} {line : Line}
      {fault : Fault} (fits : fault.Fits switch.header) :
      Refuses (.inSwitch listing draft switch) line (.atLine switch.header fault)

theorem FailsPlainly.refuses {α : Type} {result : Except Fault α} (plain : FailsPlainly result)
    (h : line.check result = .error error) : scope.Refuses line error := by
  obtain ⟨_, failed, rfl⟩ := check_eq_error_iff.1 h
  exact .fault (Fault.fits_of_isPlain (plain _ failed) line)

theorem Scope.refuses_of_step (h : scope.step line = .error error) : scope.Refuses line error := by
  unfold Scope.step at h
  split at h
  · cases h
  · next operands _ =>
    exact (failsPlainly_declareClass scope operands).refuses (map_eq_error_iff.1 h)
  · next operands _ =>
    exact (failsPlainly_annotate scope operands).refuses (map_eq_error_iff.1 h)
  · next operands _ =>
    replace h := map_eq_error_iff.1 h
    cases scope with
    | outside =>
      cases h
      exact .fault (Fault.fits_of_isPlain rfl _)
    | inClass listing =>
      unfold Scope.beginMethod at h
      dsimp only at h
      split at h
      · cases h
        exact .fault (Fault.fits_of_isPlain rfl _)
      · cases h
    | inMethod listing draft =>
      cases h
      exact .begin
  · next ends =>
    replace h := map_eq_error_iff.1 h
    cases scope with
    | outside =>
      cases h
      exact .fault (Fault.fits_of_isPlain rfl _)
    | inClass listing =>
      cases h
      exact .fault (Fault.fits_of_isPlain rfl _)
    | inMethod listing draft =>
      rcases bind_eq_error_iff.1 h with unfinished | ⟨method, -, h⟩
      · unfold Draft.finish at unfinished
        split at unfinished
        · next label undefined =>
          cases unfinished
          exact .finish (read_eq_endMethod_iff.1 ends) undefined
        · cases unfinished
      · cases h
  · next mnemonic operands read =>
    obtain ⟨_, failed, rfl⟩ := check_eq_error_iff.1 h
    rcases isPlain_or_eq_of_addInstruction failed with plain | rfl
    · exact .fault (Fault.fits_of_isPlain plain line)
    · refine .fault ⟨fun unknown same => ?_, nofun⟩
      cases same
      obtain ⟨nonempty, split⟩ := split_of_read read
      rw [Text.head?_words nonempty, split, String.toList_ofList]

theorem fits_of_close {otherwise : String} (h : switch.close otherwise = .error fault)
    (line : Line) : fault.Fits line := by
  unfold OpenSwitch.close at h
  dsimp only at h
  split at h
  · cases h
  · cases h
    exact Fault.fits_of_isPlain rfl line
  · rcases eq_of_checkKeys_eq_error (map_eq_error_iff.1 h) with rfl | ⟨stops, rfl⟩
    · exact Fault.fits_of_isPlain rfl line
    · exact ⟨nofun, fun _ => stops⟩

theorem State.refuses_of_step (h : state.step line = .error error) : state.Refuses line error := by
  cases state with
  | ready scope => exact .ready (Scope.refuses_of_step h)
  | inSwitch listing draft switch =>
    rcases bind_eq_error_iff.1 h with unread | ⟨case, -, h⟩
    · obtain ⟨_, failed, rfl⟩ := check_eq_error_iff.1 unread
      exact .case (Fault.fits_of_isPlain (failsPlainly_readCase _ _ failed) line)
    · cases case with
      | entry key label => cases h
      | otherwise label =>
        rcases bind_eq_error_iff.1 h with unclosed | ⟨node, -, h⟩
        · obtain ⟨_, failed, rfl⟩ := check_eq_error_iff.1 unclosed
          exact .switch (fits_of_close failed _)
        · cases h

end Refusals

end BranchSieve.Listing
