import BranchSieve.Json.Reader

/-!
# Configuration

The configuration of an analysis is a JSON object with two members, or an array of their values in
the same order. A member that is absent has its default; other members are ignored, but neither of
the two may come twice. The keys of the object, and the names of filters, must be texts; what is
inside an ignored member need not be.
-/

namespace BranchSieve

/-- The configuration of an analysis. -/
structure Config where
  /-- The names of the filters that are not applied. -/
  disabledFilters : List String := []
  /-- Whether methods may be analyzed at the same time, which no result depends on. -/
  parallel : Bool := false
  deriving DecidableEq, Repr

namespace Config

/-- The text of a string. -/
def text? : Json → Option String
  | .string points => CodePoint.text? points
  | _ => none

/-- The texts of an array of strings. -/
def texts? : Json → Option (List String)
  | .array elements => elements.mapM text?
  | _ => none

/-- The truth value of a boolean. -/
def bool? : Json → Option Bool
  | .bool value => some value
  | _ => none

/-- Members with the texts of their keys. -/
def named? (members : List (List CodePoint × Json)) : Option (List (String × Json)) :=
  members.mapM fun (key, value) => (CodePoint.text? key).map (·, value)

/-- The value that `read?` takes from the one member with a key, or the default if there is none. -/
def member? {α : Type} (members : List (String × Json)) (key : String) (read? : Json → Option α)
    (default : α) : Option α :=
  match members.filter (·.1 = key) with
  | [] => some default
  | [(_, value)] => read? value
  | _ => none

/-- The configuration that a value describes. -/
def ofJson? : Json → Option Config
  | .object members => do
    let members ← named? members
    let disabledFilters ← member? members "disabled_filters" texts? []
    let parallel ← member? members "parallel" bool? false
    return { disabledFilters, parallel }
  | .array [] => some {}
  | .array [disabled] => do
    let disabledFilters ← texts? disabled
    return { disabledFilters }
  | .array [disabled, parallel] => do
    let disabledFilters ← texts? disabled
    let parallel ← bool? parallel
    return { disabledFilters, parallel }
  | _ => none

/-- The configuration that a text describes. -/
def parse? (text : String) : Option Config :=
  (Json.parse? text).bind ofJson?

end Config

end BranchSieve
