import BranchSieve.Main
import BranchSieve.Proofs.Coroutine.Padding
import BranchSieve.Proofs.Coroutine.Places
import BranchSieve.Proofs.Listing.Reprinting
import BranchSieve.Proofs.Matcher.Demands
import BranchSieve.Proofs.Listing.Composition
import BranchSieve.Proofs.Listing.Consistency
import BranchSieve.Proofs.Coroutine.Extent
import BranchSieve.Proofs.Filter
import BranchSieve.Proofs.Report.Analysis
import BranchSieve.Proofs.Report.Entries
import BranchSieve.Proofs.Coroutine.Assembly
import BranchSieve.Proofs.Coroutine.Shape
import BranchSieve.Proofs.Bytecode.Replacement
import BranchSieve.Proofs.Coroutine.Literals
import BranchSieve.Proofs.Coroutine.CaseOrder
import BranchSieve.Proofs.Coroutine.Renaming
import BranchSieve.Proofs.Descriptor.Faults
import BranchSieve.Proofs.Listing.Location
import BranchSieve.Proofs.Listing.UndefinedLabels
import BranchSieve.Proofs.Listing.KeyRange
import BranchSieve.Proofs.Listing.LineCount
import BranchSieve.Proofs.Matcher.Operations
import BranchSieve.Proofs.Config
import BranchSieve.Proofs.Coroutine.Resumption
import BranchSieve.Proofs.Listing.StringLiterals
import BranchSieve.Proofs.Listing.SwitchTables
import BranchSieve.Proofs.Command.Stages
import BranchSieve.Proofs.Bytecode.Resolution
