import ScanPlanner.Planning.HostBook
import ScanPlanner.Scan.Split

/-!
# Making splits

A binning is turned into splits. A batch scan has one split for each extent or for each node,
holding the parts of the ranges that lie in each extent. Otherwise, adjusted ranges give one split
for each of these parts; ranges that are not adjusted stay whole, one split each, located at every
node that holds a part of the range.
-/

namespace ScanPlanner

/-- What the splits of one table have in common. -/
structure SplitFrame where
  tableName : TableName
  tableId : TableId
  snapshot : Snapshot

/-- A split with the given hosts and work. -/
def SplitFrame.split (f : SplitFrame) (locations : List Json) (work : Work) : Split :=
  ⟨f.tableName, f.tableId, locations, f.snapshot, work⟩

namespace Splitting

variable {ω : Type} (c : Collaborators ω) (f : SplitFrame) (b : Binning)

/-- A failure or a value, with a host book at hand. -/
def ofResult {α : Type} (r : Result α) : Naming ω α := (Step.ofResult r : Step ω α)

/-- The hosts of a node: its canonical name, if it has one. -/
def hosts (node : Address) : Naming ω (List Json) := do
  let name ← HostBook.resolve c node
  return if name.isPresent then [name] else []

/-- The parts of a bin's ranges that lie in its extent. -/
def parts (bin : Bin) : Result (List KeyRange) := bin.ranges.mapM bin.extent.rows.clip

/-- A batch for each extent. -/
def extentBatches : Naming ω (List Split) := do
  let splits ← (← ofResult b.locations).mapM fun node => do
    (← ofResult (b.binsAt node)).mapM fun bin => do
      let parts ← ofResult (parts bin)
      return f.split (← hosts c bin.location) (.batch parts)
  return splits.flatten

/-- A batch for each node. -/
def nodeBatches : Naming ω (List Split) := do
  (← ofResult b.locations).mapM fun node => do
    let parts ← ofResult (do (← b.binsAt node).mapM parts)
    return f.split (← hosts c node) (.batch parts.flatten)

/-- A split for each part of a range. -/
def singles : Naming ω (List Split) := do
  let splits ← (← ofResult b.locations).mapM fun node => do
    (← ofResult (b.binsAt node)).mapM fun bin => do
      let locations ← hosts c bin.location
      return (← ofResult (parts bin)).map fun part => f.split locations (.single part)
  return splits.flatten.flatten

/-- The extents and nodes that hold a part of each range. -/
def owners (bins : List Bin) : Ledger KeyRange (List (Extent × Address)) :=
  bins.foldl (fun owners bin => bin.ranges.foldl (fun owners range =>
    owners.alter range fun present => present.getD [] ++ [(bin.extent, bin.location)]) owners) []

/-- The values of a list, each at its first place. -/
def distinct (xs : List Json) : List Json :=
  xs.foldl (fun seen x => if seen.contains x then seen else seen ++ [x]) []

/-- The bins, if their ranges can be looked up. -/
def keyedBins : Result (List Bin) := do
  let bins ← b.items
  if (bins.flatMap Bin.ranges).all KeyRange.isKey then return bins else throw .unlike

/-- A split for each range, whole. -/
def wholes : Naming ω (List Split) := do
  let owners := owners (← ofResult (keyedBins b))
  (← ofResult (KeyRange.sort owners.keys)).mapM fun range => do
    let holders ← ofResult (Extent.sortOn Prod.fst ((owners.get? range).getD []))
    let locations ← holders.mapM fun holder => hosts c holder.2
    return f.split (distinct locations.flatten) (.single range)

/-- The splits of a scan. -/
def splits (s : TableScan) : Naming ω (List Split) :=
  if s.batch then
    match s.grouping with
    | .node => nodeBatches c f b
    | .extent => extentBatches c f b
  else if s.adjust then singles c f b
  else wholes c f b

/-- Makes the splits of a scan, with an empty host book of the given size. -/
def make (s : TableScan) (bookSize : Int) : Step ω (List Split) := do
  let (splits, _) ← (splits c f b s).run (Lru.empty bookSize)
  Step.note .debug .splits
    ("Created " ++ toString splits.length ++ " splits for table " ++ f.tableName.shown)
  return splits

end Splitting

end ScanPlanner
