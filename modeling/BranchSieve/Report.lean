import BranchSieve.Filter
import BranchSieve.Json.Basic

/-!
# Reports

The report of a class lists for each method the ranges that the filters found, in ascending order,
and the number of instructions that at least one of them covers. Methods can be looked at in
parallel. A report has a JSON form.
-/

namespace BranchSieve

/-- What was found in a method. -/
structure MethodReport where
  name : String
  descriptor : String
  ranges : List IgnoreRange
  /-- The number of nodes with an opcode that lie in at least one range. -/
  ignoredInstructions : Nat
  deriving DecidableEq, Repr

/-- What was found in a class, method by method in the order of their declaration. -/
structure ClassReport where
  className : String
  methods : List MethodReport
  deriving DecidableEq, Repr

/-- The number of nodes with an opcode that lie in at least one of the ranges. -/
def Body.ignoredCount (body : Body) (ranges : List IgnoreRange) : Nat :=
  body.nodes.toList.zipIdx.countP fun (node, index) =>
    !node.isMarker && ranges.any (·.contains index)

/-- The ranges that some filters find in a method, filter by filter. -/
def Method.foundRanges (listing : ClassListing) (filters : List Filter) (method : Method) :
    List IgnoreRange :=
  filters.flatMap (·.ranges listing method)

/-- The report of a method, given the ranges that were found in it. -/
def Method.reportOn (method : Method) (ranges : List IgnoreRange) : MethodReport :=
  ⟨method.name, method.descriptor, ranges, method.body.ignoredCount ranges⟩

/-- The report of a method. -/
def Method.report (listing : ClassListing) (filters : List Filter) (method : Method) :
    MethodReport :=
  method.reportOn (IgnoreRange.sort (method.foundRanges listing filters))

/-- The report of a class. -/
def ClassListing.report (listing : ClassListing) (filters : List Filter) : ClassReport :=
  ⟨listing.name, listing.methods.map (·.report listing filters)⟩

/-- The ranges of each method in ascending order. Methods are looked at one after the other, or in
    parallel, where each has a task of its own and the results are taken in their order. -/
def ClassListing.rangesByMethod (listing : ClassListing) (filters : List Filter)
    (parallel : Bool) : List (List IgnoreRange) :=
  let find (method : Method) := IgnoreRange.sort (method.foundRanges listing filters)
  if parallel then
    let tasks := listing.methods.map fun method => Task.spawn fun _ => find method
    tasks.map Task.get
  else listing.methods.map find

/-- The report of a class under a configuration, where each method gets the ranges in its place. -/
def ClassListing.analyze (listing : ClassListing) (filters : List Filter) (config : Config) :
    ClassReport :=
  let ranges := listing.rangesByMethod filters config.parallel
  ⟨listing.name, (listing.methods.zip ranges).map fun (method, found) => method.reportOn found⟩

namespace ClassReport

/-- The number of ranges in all methods. -/
def rangeCount (report : ClassReport) : Nat :=
  report.methods.foldr (fun method count => method.ranges.length + count) 0

/-- The number of ignored instructions in all methods. -/
def ignoredCount (report : ClassReport) : Nat :=
  report.methods.foldr (fun method count => method.ignoredInstructions + count) 0

end ClassReport

/-- The JSON form of a range. -/
def IgnoreRange.toJson (range : IgnoreRange) : Json :=
  .ofMembers [("first", .ofNat range.first), ("last", .ofNat range.last)]

/-- The JSON form of a method's report. -/
def MethodReport.toJson (report : MethodReport) : Json :=
  .ofMembers
    [("name", .ofString report.name), ("descriptor", .ofString report.descriptor),
     ("ranges", .array (report.ranges.map IgnoreRange.toJson)),
     ("ignored_instructions", .ofNat report.ignoredInstructions)]

/-- The JSON form of a class's report. -/
def ClassReport.toJson (report : ClassReport) : Json :=
  .ofMembers
    [("class", .ofString report.className),
     ("methods", .array (report.methods.map MethodReport.toJson))]

end BranchSieve
