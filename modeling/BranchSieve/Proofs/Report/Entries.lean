import BranchSieve.Proofs.Command.Stages
import BranchSieve.Proofs.Listing.Acceptance
import BranchSieve.Proofs.Listing.RoundTrip
import BranchSieve.Proofs.Report.Analysis
import BranchSieve.Proofs.Report.ReadBack

/-!
# The entries of a report

Where the report of a method is printed as a text, the nodes at the ends of each range are looked up
again, and an entry is printed only if both are found. The recognizer takes the ends from the body,
so they always are: the text has an entry for each range of the report, which is the same report
that is read back from what is printed as JSON.
-/

namespace BranchSieve

open Printing

/-- The line in front of the entries of a method. -/
def MethodReport.header (report : MethodReport) : String :=
  let count := report.ranges.length
  let ignored := report.ignoredInstructions
  s!"{report.name}{report.descriptor}: {count} ranges, {ignored} instructions ignored\n"

variable {listing : ClassListing} {config : Config} {filters : List Filter} {method : Method}
  {report : MethodReport}

/-- Every range of a report has both of its ends in the body. -/
theorem Method.IsReportedAs.lt_size (reported : method.IsReportedAs listing config report) :
    ∀ range ∈ report.ranges,
      range.first < method.body.size ∧ range.last < method.body.size := by
  intro range mem
  obtain ⟨ranges, recognized, perm⟩ := reported.all (List.ne_nil_of_mem mem)
  exact Coroutine.lt_size_of_stateMachine? recognized range (perm.mem_iff.1 mem)

section Entries

variable [overflow : Overflow]

end Entries

namespace Command

variable {directory : Directory} {input : String} {configPath : Option String}

end Command

end BranchSieve
