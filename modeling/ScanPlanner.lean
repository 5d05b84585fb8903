import ScanPlanner.Json.Writer
import ScanPlanner.Planning.Basic
import ScanPlanner.Planning.Rehearsal
import ScanPlanner.Registry
import ScanPlanner.Scan.Reader
import ScanPlanner.Service.Catalog
import ScanPlanner.Proofs.Cut
import ScanPlanner.Proofs.Span
import ScanPlanner.Proofs.KeyRange
import ScanPlanner.Proofs.OneSort
import ScanPlanner.Proofs.Sorting
import ScanPlanner.Proofs.Ledger
import ScanPlanner.Proofs.Binning
import ScanPlanner.Proofs.Covering
import ScanPlanner.Proofs.Spread
import ScanPlanner.Proofs.Store
import ScanPlanner.Proofs.Attempt
import ScanPlanner.Proofs.Recency
import ScanPlanner.Proofs.Retry
import ScanPlanner.Proofs.Decisive
import ScanPlanner.Proofs.Naming
import ScanPlanner.Proofs.Splitting
import ScanPlanner.Proofs.Coverage
import ScanPlanner.Proofs.Planning
import ScanPlanner.Proofs.Transition
import ScanPlanner.Proofs.History
import ScanPlanner.Proofs.Locality
import ScanPlanner.Proofs.Ownership
import ScanPlanner.Proofs.Failing
import ScanPlanner.Proofs.Congruence
import ScanPlanner.Proofs.Likeness
import ScanPlanner.Proofs.Watching
import ScanPlanner.Proofs.Reporting
import ScanPlanner.Proofs.Walking
import ScanPlanner.Proofs.Fitting
import ScanPlanner.Proofs.Shapes
import ScanPlanner.Proofs.Dropping
import ScanPlanner.Proofs.TakingOffline
import ScanPlanner.Proofs.Exchange
import ScanPlanner.Proofs.Missing
import ScanPlanner.Proofs.Path
import ScanPlanner.Proofs.TabletRecord
import ScanPlanner.Proofs.TableNames
import ScanPlanner.Proofs.Served
import ScanPlanner.Proofs.Growth
import ScanPlanner.Proofs.ServedPlanning
import ScanPlanner.Proofs.Live
import ScanPlanner.Proofs.Views
import ScanPlanner.Proofs.Precedence
import ScanPlanner.Proofs.Lookups
import ScanPlanner.Proofs.Independence
import ScanPlanner.Proofs.TableIds
import ScanPlanner.Proofs.Unnamed
import ScanPlanner.Proofs.Gapless
import ScanPlanner.Proofs.Chains
import ScanPlanner.Proofs.Partition
import ScanPlanner.Proofs.SplitRecord
import ScanPlanner.Proofs.Comparable
import ScanPlanner.Proofs.Upholding
import ScanPlanner.Proofs.ComparableBackends
import ScanPlanner.Proofs.Captured
import ScanPlanner.Proofs.Holes
import ScanPlanner.Proofs.Resolving
import ScanPlanner.Proofs.Telling
import ScanPlanner.Proofs.Holders
import ScanPlanner.Proofs.Wholes
import ScanPlanner.Proofs.Beside
import ScanPlanner.Proofs.Unclipped
import ScanPlanner.Proofs.Uniting
import ScanPlanner.Proofs.Merging
import ScanPlanner.Proofs.Clipping
import ScanPlanner.Proofs.RangeOrder
import ScanPlanner.Proofs.Remembering
import ScanPlanner.Proofs.Writing
import ScanPlanner.Proofs.LastHost
import ScanPlanner.Proofs.Interleaving
import ScanPlanner.Proofs.Assigning
import ScanPlanner.Proofs.Converting
