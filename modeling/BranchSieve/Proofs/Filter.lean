import BranchSieve.Report
import Mathlib.Data.List.Basic

/-!
# Where a filter applies

A configuration that is accepted leaves those filters that it does not disable. The one for
coroutines finds something in a method exactly if the class is a Kotlin class, the method is the
body of a suspending lambda, and the body is a state machine. The last argument of such a method is
a class and no array of it, since the name of an array ends in brackets.
-/

namespace BranchSieve

namespace Descriptor

/-- A last argument has a name if the arguments can be read and the last of their types has it. -/
theorem lastArgumentIs_eq_true_iff {descriptor name : String} :
    lastArgumentIs descriptor name = true ↔
      ∃ types type, argumentTypes descriptor = .ok types ∧ types.getLast? = some type ∧
        type.className = name := by
  cases read : argumentTypes descriptor with
  | error fault => simp [lastArgumentIs, argumentNames, read, Except.map]
  | ok types => simp [lastArgumentIs, argumentNames, read, Except.map, Option.map_eq_some_iff]

/-- No primitive type and no array has the name of a class that is no primitive type's and does
    not end in a bracket. -/
theorem className_eq_iff {type : ArgumentType} {name : String}
    (reference : ∀ primitive : Primitive, primitive.name ≠ name)
    (scalar : name.toList.getLast? ≠ some ']') :
    type.className = name ↔ ∃ internalName, type = ⟨0, .object internalName⟩ ∧
      (internalName.map fun c => if c = '/' then '.' else c) = name.toList := by
  obtain ⟨dims, element⟩ := type
  cases dims with
  | zero =>
    cases element with
    | primitive primitive => simp [ArgumentType.className, Element.className, reference]
    | object internalName =>
      rw [← String.toList_inj]
      simp [ArgumentType.className, Element.className]
  | succ dims =>
    -- The name of an array ends in the bracket of its last dimension.
    refine iff_of_false (fun same => scalar ?_) (by simp)
    rw [← same, ArgumentType.className, List.replicate_succ']
    simp

end Descriptor

/-- The method is the body of a suspending lambda of a Kotlin class: by its name, and by its last
    argument, which is what resumes it. -/
structure Method.IsSuspendLambda (listing : ClassListing) (method : Method) : Prop where
  kotlin : "Lkotlin/Metadata;" ∈ listing.annotations
  named : method.name = "invokeSuspend"
  resumed : ∃ types internalName, Descriptor.argumentTypes method.descriptor = .ok types ∧
    types.getLast? = some ⟨0, .object internalName⟩ ∧
    (internalName.map fun c => if c = '/' then '.' else c) =
      "kotlin.coroutines.Continuation".toList

variable {listing : ClassListing} {method : Method} {config : Config} {filters : List Filter}

theorem Filter.isSuspendLambda_eq_true_iff :
    isSuspendLambda listing method = true ↔ method.IsSuspendLambda listing := by
  have continuation : ∀ type : Descriptor.ArgumentType,
      type.className = "kotlin.coroutines.Continuation" ↔ ∃ internalName,
        type = ⟨0, .object internalName⟩ ∧
        (internalName.map fun c => if c = '/' then '.' else c) =
          "kotlin.coroutines.Continuation".toList :=
    fun type => Descriptor.className_eq_iff (fun primitive => by cases primitive <;> decide)
      (by decide)
  simp only [isSuspendLambda, ClassListing.isKotlin, Bool.and_eq_true, List.contains_iff_mem,
    decide_eq_true_eq, Descriptor.lastArgumentIs_eq_true_iff, continuation]
  constructor
  · rintro ⟨⟨kotlin, named⟩, types, _, read, last, internalName, rfl, dotted⟩
    exact ⟨kotlin, named, types, internalName, read, last, dotted⟩
  · rintro ⟨kotlin, named, types, internalName, read, last, dotted⟩
    exact ⟨⟨kotlin, named⟩, types, _, read, last, internalName, rfl, dotted⟩

instance : Decidable (method.IsSuspendLambda listing) :=
  decidable_of_iff _ Filter.isSuspendLambda_eq_true_iff

/-- An accepted configuration leaves the filters that it does not disable, in their order. -/
theorem Config.eq_filter_of_filters (accepted : config.filters = .ok filters) :
    filters = Filter.all.filter fun filter => !config.disabledFilters.contains filter.name := by
  unfold Config.filters at accepted
  split at accepted
  · cases accepted
  · exact (Except.ok.inj accepted).symm

/-- The filters of an accepted configuration find the state machine of a method, or nothing. -/
theorem Method.foundRanges_eq (accepted : config.filters = .ok filters) :
    method.foundRanges listing filters =
      if "KotlinCoroutine" ∉ config.disabledFilters ∧ method.IsSuspendLambda listing then
        (Coroutine.stateMachine? method.body).getD []
      else [] := by
  have left := Config.eq_filter_of_filters accepted
  by_cases disabled : "KotlinCoroutine" ∈ config.disabledFilters
  · have none_left : filters = [] := by simpa [Filter.all, Filter.name, disabled] using left
    rw [none_left, if_neg fun applies => applies.1 disabled]
    rfl
  · have one_left : filters = [.kotlinCoroutine] := by
      simpa [Filter.all, Filter.name, disabled] using left
    simp [one_left, foundRanges, Filter.ranges, Filter.isSuspendLambda_eq_true_iff, disabled]

/-- A method has all ranges of its state machine, or the filters find nothing in it. -/
theorem Method.all_or_nothing (listing : ClassListing) (method : Method)
    (accepted : config.filters = .ok filters) :
    ("KotlinCoroutine" ∉ config.disabledFilters ∧ method.IsSuspendLambda listing) ∧
        Coroutine.stateMachine? method.body = some (method.foundRanges listing filters) ∨
      ¬ ("KotlinCoroutine" ∉ config.disabledFilters ∧ method.IsSuspendLambda listing ∧
          (Coroutine.stateMachine? method.body).isSome) ∧
        method.foundRanges listing filters = [] := by
  rw [foundRanges_eq accepted]
  split
  · next applies =>
    cases recognized : Coroutine.stateMachine? method.body with
    | some ranges => exact .inl ⟨applies, rfl⟩
    | none => exact .inr ⟨by simp, rfl⟩
  · next applies => exact .inr ⟨fun ⟨kept, lambda, _⟩ => applies ⟨kept, lambda⟩, rfl⟩

end BranchSieve
