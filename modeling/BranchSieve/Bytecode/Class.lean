import BranchSieve.Bytecode.Body

/-!
# Classes

The part of a class that a listing holds: its name, the types of its annotations, and its methods
in the order of their declaration.
-/

namespace BranchSieve

/-- A method with its body. -/
structure Method where
  name : String
  descriptor : String
  body : Body
  deriving DecidableEq, Repr

/-- A class as a listing declares it. -/
structure ClassListing where
  /-- The internal name. -/
  name : String
  /-- The descriptors of the annotations' types. -/
  annotations : List String
  methods : List Method
  deriving DecidableEq, Repr

/-- Equality of methods with constants compared as values. -/
def Method.sameValue (a b : Method) : Bool :=
  a.name = b.name && a.descriptor = b.descriptor && a.body.sameValue b.body

/-- Equality of classes with constants compared as values. -/
def ClassListing.sameValue (a b : ClassListing) : Bool :=
  a.name = b.name && a.annotations = b.annotations &&
    a.methods.isEqv b.methods Method.sameValue

end BranchSieve
