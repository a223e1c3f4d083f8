import BranchSieve.Bytecode.Class
import BranchSieve.Config
import BranchSieve.Coroutine
import BranchSieve.Descriptor

/-!
# Filters

A filter finds the instructions of a method that a compiler added on its own. A method in which it
recognizes nothing has no ranges. A configuration disables filters by name, and a name that no
filter has is an error.
-/

namespace BranchSieve

/-- Does the class carry the annotation that the Kotlin compiler puts on every class? -/
def ClassListing.isKotlin (listing : ClassListing) : Bool :=
  listing.annotations.contains "Lkotlin/Metadata;"

/-- A filter. -/
inductive Filter where
  /-- The dispatch of coroutine state machines. -/
  | kotlinCoroutine
  deriving DecidableEq, Repr

namespace Filter

/-- Every filter, in the order in which they are applied. -/
def all : List Filter := [.kotlinCoroutine]

/-- The name by which a configuration knows the filter. -/
def name : Filter → String
  | .kotlinCoroutine => "KotlinCoroutine"

/-- Is the method the body of a suspending lambda of a Kotlin class, by its name and its last
    argument? -/
def isSuspendLambda (listing : ClassListing) (method : Method) : Bool :=
  listing.isKotlin && method.name = "invokeSuspend" &&
    Descriptor.lastArgumentIs method.descriptor "kotlin.coroutines.Continuation"

/-- The ranges that the filter finds in a method of a class. -/
def ranges (listing : ClassListing) (method : Method) : Filter → List IgnoreRange
  | .kotlinCoroutine =>
    if isSuspendLambda listing method then (Coroutine.stateMachine? method.body).getD [] else []

end Filter

namespace Config

/-- The first disabled name that no filter has. -/
def unknownFilter? (config : Config) : Option String :=
  config.disabledFilters.find? fun name => Filter.all.all (·.name ≠ name)

/-- The filters that are applied, or the first name that is unknown. -/
def filters (config : Config) : Except String (List Filter) :=
  match config.unknownFilter? with
  | some name => .error name
  | none => .ok (Filter.all.filter fun filter => !config.disabledFilters.contains filter.name)

end Config

end BranchSieve
