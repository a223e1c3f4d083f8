import BranchSieve.Config
import BranchSieve.Proofs.Json.Writing
import BranchSieve.Report

/-!
# Reading reports back

What a JSON text says about the methods of a class and their ranges, by the names of the members
alone. The text of a report says just what the report holds.
-/

namespace BranchSieve

namespace Json

/-- The value of the first member with a name. -/
def member? (value : Json) (name : String) : Option Json :=
  match value with
  | .object members =>
    (members.find? fun member => CodePoint.text? member.1 = some name).map Prod.snd
  | _ => none

/-- A number without a sign, a fraction and a power of ten. -/
def natural? : Json → Option Nat
  | .number digits => Text.natural? digits
  | _ => none

/-- What the elements of an array say. -/
def elements? {α : Type} (read? : Json → Option α) : Json → Option (List α)
  | .array elements => elements.mapM read?
  | _ => none

end Json

/-- The range that a value describes. -/
def IgnoreRange.ofJson? (value : Json) : Option IgnoreRange := do
  let first ← (← value.member? "first").natural?
  let last ← (← value.member? "last").natural?
  return ⟨first, last⟩

/-- The report of a method that a value describes. -/
def MethodReport.ofJson? (value : Json) : Option MethodReport := do
  let name ← Config.text? (← value.member? "name")
  let descriptor ← Config.text? (← value.member? "descriptor")
  let ranges ← (← value.member? "ranges").elements? IgnoreRange.ofJson?
  let ignoredInstructions ← (← value.member? "ignored_instructions").natural?
  return ⟨name, descriptor, ranges, ignoredInstructions⟩

/-- The report of a class that a value describes. -/
def ClassReport.ofJson? (value : Json) : Option ClassReport := do
  let className ← Config.text? (← value.member? "class")
  let methods ← (← value.member? "methods").elements? MethodReport.ofJson?
  return ⟨className, methods⟩

/-- The report that a text describes. -/
def ClassReport.read? (text : String) : Option ClassReport :=
  (Json.parse? text).bind ofJson?

namespace Json

theorem member?_ofMembers_self (name : String) (value : Json) (members : List (String × Json)) :
    (ofMembers ((name, value) :: members)).member? name = some value := by
  simp [ofMembers, member?]

theorem member?_ofMembers_of_ne {name other : String} (differs : other ≠ name) (value : Json)
    (members : List (String × Json)) :
    (ofMembers ((other, value) :: members)).member? name = (ofMembers members).member? name := by
  simp [ofMembers, member?, differs]

theorem natural?_ofNat (n : Nat) : (ofNat n).natural? = some n := Text.natural?_toDigits n

theorem elements?_map {α : Type} {read? : Json → Option α} {write : α → Json}
    (back : ∀ a, read? (write a) = some a) (list : List α) :
    (array (list.map write)).elements? read? = some list :=
  mapM_map_eq_some back list

end Json

theorem IgnoreRange.ofJson?_toJson (range : IgnoreRange) : ofJson? range.toJson = some range := by
  simp [ofJson?, toJson, Json.member?_ofMembers_self, Json.member?_ofMembers_of_ne,
    Json.natural?_ofNat]

theorem MethodReport.ofJson?_toJson (report : MethodReport) :
    ofJson? report.toJson = some report := by
  simp [ofJson?, toJson, Json.member?_ofMembers_self, Json.member?_ofMembers_of_ne,
    Json.natural?_ofNat, Config.text?, Json.ofString, Json.elements?_map IgnoreRange.ofJson?_toJson]

theorem ClassReport.ofJson?_toJson (report : ClassReport) :
    ofJson? report.toJson = some report := by
  simp [ofJson?, toJson, Json.member?_ofMembers_self, Json.member?_ofMembers_of_ne,
    Config.text?, Json.ofString, Json.elements?_map MethodReport.ofJson?_toJson]

theorem IgnoreRange.isPlain_toJson (range : IgnoreRange) : range.toJson.IsPlain := by
  apply Json.IsPlain.object
  simp [Json.isPlain_ofNat]

theorem MethodReport.isPlain_toJson (report : MethodReport) : report.toJson.IsPlain := by
  have ranges : (Json.array (report.ranges.map IgnoreRange.toJson)).IsPlain :=
    .array (List.forall_mem_map.2 fun range _ => range.isPlain_toJson)
  apply Json.IsPlain.object
  simp [ranges, Json.IsPlain.string, Json.isPlain_ofNat]

theorem ClassReport.isPlain_toJson (report : ClassReport) : report.toJson.IsPlain := by
  have methods : (Json.array (report.methods.map MethodReport.toJson)).IsPlain :=
    .array (List.forall_mem_map.2 fun method _ => method.isPlain_toJson)
  apply Json.IsPlain.object
  simp [methods, Json.IsPlain.string]

end BranchSieve
