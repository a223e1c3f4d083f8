import BranchSieve.Proofs.Listing.Location

/-!
# Keys that every counter comes to

The counter of the keys in a table is moved on before its number is compared, so that it can stop
the program one key before the greatest one. Below that key all counters are alike: a text none of
whose cases has one of the two greatest keys is read the same, however the program is built.
-/

namespace BranchSieve.Listing

/-- The key is none of the two greatest ones. -/
def IsInner (key : Int32) : Prop := key.toInt + 1 < Int32.maxValue.toInt

/-- The cases of an open switch have inner keys. -/
def State.HasInnerKeys : State → Prop
  | .ready _ => True
  | .inSwitch _ _ switch => ∀ case ∈ switch.reversedCases, IsInner case.1

variable {overflow overflow' : Overflow} {state next : State} {line : Line} {lines : List Line}

/-- Inner keys are compared alike with the numbers of a counter. -/
theorem checkKeys_eq_of_isInner {number : Int32} {keys : List Int32}
    (below : number.toInt < Int32.maxValue.toInt) (inner : ∀ key ∈ keys, IsInner key) :
    @OpenSwitch.checkKeys overflow (some number) keys =
      @OpenSwitch.checkKeys overflow' (some number) keys := by
  induction keys generalizing number with
  | nil => rfl
  | cons key keys ih =>
    have notGreatest : number ≠ Int32.maxValue := by
      rintro rfl
      exact Int.lt_irrefl _ below
    have goesOn (overflow : Overflow) : Overflow.stopsAt number = false := by
      simp [Overflow.stopsAt, notGreatest]
    have moves (overflow : Overflow) : Overflow.next? number = some (number + 1) := by
      rw [Overflow.next?, if_neg notGreatest]
    simp only [OpenSwitch.checkKeys, goesOn, moves]
    by_cases due : key = number
    · subst due
      obtain ⟨here, others⟩ := List.forall_mem_cons.1 inner
      have behind : (key + 1).toInt < Int32.maxValue.toInt := by rwa [toInt_add_one below]
      rw [ih behind others]
    · rw [if_neg due, if_neg due]

theorem close_eq_of_isInner {switch : OpenSwitch} (label : String)
    (inner : ∀ case ∈ switch.reversedCases, IsInner case.1) :
    @OpenSwitch.close overflow switch label = @OpenSwitch.close overflow' switch label := by
  obtain ⟨header, kind, reversedCases⟩ := switch
  have keys : ∀ key ∈ reversedCases.reverse.map Prod.fst, IsInner key := by
    rw [List.forall_mem_map]
    exact fun case mem => inner case (List.mem_reverse.1 mem)
  simp only [OpenSwitch.close]
  generalize reversedCases.reverse.map Prod.fst = front at keys
  cases kind with
  | lookup => rfl
  | table =>
    cases front with
    | nil => rfl
    | cons min rest =>
      have first : min.toInt + 1 < Int32.maxValue.toInt := keys min List.mem_cons_self
      dsimp only
      rw [checkKeys_eq_of_isInner (by omega) keys]

/-- A line is read alike. -/
theorem step_eq_of_hasInnerKeys (inner : state.HasInnerKeys) (line : Line) :
    @State.step overflow state line = @State.step overflow' state line := by
  cases state with
  | ready scope => rfl
  | inSwitch listing draft switch =>
    simp only [State.step]
    refine congrArg (line.check _ >>= ·) (funext fun case => ?_)
    cases case with
    | entry key label => rfl
    | otherwise label =>
      have closes : @OpenSwitch.close overflow switch label =
          @OpenSwitch.close overflow' switch label := close_eq_of_isInner label inner
      dsimp only
      rw [closes]

/-- A case with an inner key keeps the keys of the switch inner ones. -/
theorem hasInnerKeys_of_step [Overflow] (inner : state.HasInnerKeys)
    (keys : ∀ key label, SpellsCase line.text.toList key label → IsInner key)
    (h : state.step line = .ok next) : next.HasInnerKeys := by
  cases state with
  | ready scope =>
    cases next with
    | ready scope' => trivial
    | inSwitch listing draft switch =>
      obtain ⟨kind, -, rfl, -⟩ := opensSwitch_of_step h
      exact nofun
  | inSwitch listing draft switch =>
    obtain ⟨case, read, h⟩ := bind_eq_ok_iff.1 h
    rcases readCase_eq_ok_iff.1 (check_eq_ok_iff.1 read) with
      ⟨key, label, spells, rfl⟩ | ⟨label, -, rfl⟩
    · obtain rfl := pure_eq_ok_iff.1 h
      exact List.forall_mem_cons.2 ⟨keys key label spells, inner⟩
    · obtain ⟨node, -, h⟩ := bind_eq_ok_iff.1 h
      obtain rfl := pure_eq_ok_iff.1 h
      trivial

theorem foldlM_eq_of_isInner (inner : state.HasInnerKeys)
    (keys : ∀ line ∈ lines, ∀ key label, SpellsCase line.text.toList key label → IsInner key) :
    lines.foldlM (@State.step overflow) state = lines.foldlM (@State.step overflow') state := by
  induction lines generalizing state with
  | nil => rfl
  | cons line lines ih =>
    obtain ⟨here, later⟩ := List.forall_mem_cons.1 keys
    have same : @State.step overflow state line = @State.step overflow' state line :=
      step_eq_of_hasInnerKeys inner line
    rw [List.foldlM_cons, List.foldlM_cons, same]
    cases step : @State.step overflow' state line with
    | error error => rfl
    | ok next => exact ih (hasInnerKeys_of_step inner here step) later

/-- A text none of whose lines is a case with one of the two greatest keys is read the same,
    whatever counters do behind the greatest number. -/
theorem parse_eq_of_isInner (overflow overflow' : Overflow) {text : String}
    (keys : ∀ line ∈ Text.lines text.toList, ∀ key label, SpellsCase line key label →
      IsInner key) : @parse overflow text = @parse overflow' text := by
  have numbered : ∀ line ∈ numberedLines text, ∀ key label,
      SpellsCase line.text.toList key label → IsInner key := by
    intro line mem
    apply keys
    rw [← map_toList_numberedLines]
    exact List.mem_map_of_mem mem
  have initial : State.initial.HasInnerKeys := trivial
  unfold parse
  rw [foldlM_eq_of_isInner initial numbered]

end BranchSieve.Listing
