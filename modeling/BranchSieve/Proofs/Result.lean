/-!
# Results and errors

When a computation that can fail gives a result: each of its steps does. It fails where the first of
them does. Two computations end alike if
both give results or both fail, and what they end with is related; this is kept when each of them
goes on in steps that end alike.
-/

namespace BranchSieve

variable {ε ε' ε'' α α' β β' : Type} {result : Except ε α}

theorem ok_bind {a : α} {next : α → Except ε β} : (.ok a >>= next) = next a := rfl

theorem bind_eq_ok_iff {next : α → Except ε β} {b : β} :
    result >>= next = .ok b ↔ ∃ a, result = .ok a ∧ next a = .ok b := by
  cases result with
  | error fault => simp [bind, Except.bind]
  | ok a => simp [bind, Except.bind]

theorem map_eq_ok_iff {f : α → β} {b : β} :
    result.map f = .ok b ↔ ∃ a, result = .ok a ∧ f a = b := by
  cases result with
  | error fault => simp [Except.map]
  | ok a => simp [Except.map]

theorem mapError_eq_ok_iff {f : ε → ε'} {a : α} : result.mapError f = .ok a ↔ result = .ok a := by
  cases result with
  | error fault => exact iff_of_false nofun nofun
  | ok b =>
    constructor
    · intro h
      rw [Except.ok.inj h]
    · intro h
      rw [Except.ok.inj h]
      rfl

theorem pure_eq_ok_iff {a b : α} : (pure a : Except ε α) = .ok b ↔ a = b := by
  simp [pure, Except.pure]

theorem bind_eq_error_iff {next : α → Except ε β} {fault : ε} :
    result >>= next = .error fault ↔
      result = .error fault ∨ ∃ a, result = .ok a ∧ next a = .error fault := by
  cases result with
  | error other => simp [bind, Except.bind]
  | ok a => simp [bind, Except.bind]

theorem map_eq_error_iff {f : α → β} {fault : ε} :
    result.map f = .error fault ↔ result = .error fault := by
  cases result with
  | error other => simp [Except.map]
  | ok a => simp [Except.map]

theorem mapError_eq_error_iff {f : ε → ε'} {fault : ε'} :
    result.mapError f = .error fault ↔ ∃ cause, result = .error cause ∧ f cause = fault := by
  cases result with
  | error other =>
    constructor
    · intro h
      exact ⟨other, rfl, Except.error.inj h⟩
    · rintro ⟨cause, same, rfl⟩
      rw [Except.error.inj same]
      rfl
  | ok a => exact iff_of_false nofun (by simp)

/-- A computation in steps fails where one of them does behind steps that give results. -/
theorem foldlM_eq_error_iff {step : α → β → Except ε α} {items : List β} {start : α} {fault : ε} :
    items.foldlM step start = .error fault ↔
      ∃ front item back state, items = front ++ item :: back ∧ front.foldlM step start = .ok state ∧
        step state item = .error fault := by
  induction items generalizing start with
  | nil => simp [pure, Except.pure]
  | cons first items ih =>
    rw [List.foldlM_cons, bind_eq_error_iff]
    constructor
    · rintro (here | ⟨state, here, later⟩)
      · exact ⟨[], first, items, start, rfl, rfl, here⟩
      · obtain ⟨front, item, back, last, rfl, reached, failed⟩ := ih.1 later
        refine ⟨first :: front, item, back, last, rfl, ?_, failed⟩
        rw [List.foldlM_cons, here, ok_bind, reached]
    · rintro ⟨front, item, back, last, split, reached, failed⟩
      cases front with
      | nil =>
        obtain ⟨rfl, rfl⟩ := List.cons.inj split
        obtain rfl := Except.ok.inj reached
        exact .inl failed
      | cons _ front =>
        obtain ⟨rfl, rfl⟩ := List.cons.inj split
        rw [List.foldlM_cons, bind_eq_ok_iff] at reached
        obtain ⟨state, here, reached⟩ := reached
        exact .inr ⟨state, here, ih.2 ⟨front, item, back, last, rfl, reached, failed⟩⟩

/-- Two computations end alike, with related results or with related errors. -/
inductive LiftRel (errors : ε → ε' → Prop) (results : α → β → Prop) :
    Except ε α → Except ε' β → Prop where
  | error {fault : ε} {fault' : ε'} (related : errors fault fault') :
      LiftRel errors results (.error fault) (.error fault')
  | ok {a : α} {b : β} (related : results a b) : LiftRel errors results (.ok a) (.ok b)

namespace LiftRel

variable {errors : ε → ε' → Prop} {results : α → β → Prop} {results' : α' → β' → Prop}
  {other : Except ε' β}

theorem bind (alike : LiftRel errors results result other) {next : α → Except ε α'}
    {next' : β → Except ε' β'}
    (goOn : ∀ a b, results a b → LiftRel errors results' (next a) (next' b)) :
    LiftRel errors results' (result >>= next) (other >>= next') := by
  cases alike with
  | error related => exact .error related
  | ok related => exact goOn _ _ related

theorem map (alike : LiftRel errors results result other) {f : α → α'} {g : β → β'}
    (kept : ∀ a b, results a b → results' (f a) (g b)) :
    LiftRel errors results' (result.map f) (other.map g) := by
  cases alike with
  | error related => exact .error related
  | ok related => exact .ok (kept _ _ related)

theorem mapError {errors' : ε'' → ε'' → Prop} (alike : LiftRel errors results result other)
    {f : ε → ε''} {g : ε' → ε''}
    (kept : ∀ fault fault', errors fault fault' → errors' (f fault) (g fault')) :
    LiftRel errors' results (result.mapError f) (other.mapError g) := by
  cases alike with
  | error related => exact .error (kept _ _ related)
  | ok related => exact .ok related

/-- A computation ends like itself. -/
theorem refl (result : Except ε α) : LiftRel Eq Eq result result := by
  cases result with
  | error fault => exact .error rfl
  | ok a => exact .ok rfl

end LiftRel

end BranchSieve
