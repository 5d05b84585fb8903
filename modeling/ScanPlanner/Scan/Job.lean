import ScanPlanner.Scan.Split
import ScanPlanner.Settings.Planner

/-!
# Jobs

The tables that a job scans, in the order in which they were configured, and its settings. What a
table sets wins over what the job sets.
-/

namespace ScanPlanner

/-- A job: scans by the names of their tables, and the settings of the job. -/
structure Job where
  scans : Ledger TableName TableScan
  settings : Settings

namespace TableScan

/-- The scan that settings ask for. -/
def ofSettings (given : Settings) (ranges : List KeyRange) (columns : List Column)
    (iterators : List IteratorSetting) : Result TableScan := do
  let adjust ← given.flag .adjust
  let batch ← given.flag .batch
  let offline ← given.flag .offline
  let isolated ← given.flag .isolated
  let localIterators ← given.flag .localIterators
  let grouping ← given.grouping
  return { ranges, adjust, batch, offline, isolated, localIterators, grouping, columns, iterators }

/-- Reads the scan of a table, given the settings of its job. -/
def ofJson (given : Settings) (v : Json) : Result TableScan := do
  let v := if v.isPresent then v else .object []
  let own ← Settings.ofJson (← v.memberOrNull "options")
  let ranges ← (← v.memberItems "ranges").mapM KeyRange.ofJson
  let columns ← (← v.memberItems "columns").mapM Column.ofJson
  let iterators ← (← v.memberItems "iterators").mapM IteratorSetting.ofJson
  ofSettings (given.merge own) ranges columns iterators

end TableScan

namespace Job

/-- Reads a job: records of scans by the names of their tables, and settings. -/
def ofRecords (tables : Ledger TableName Json) (settings : Settings) : Result Job := do
  let scans ← tables.mapM fun (name, record) => do
    return (name, ← TableScan.ofJson settings record)
  return ⟨scans, settings⟩

/-- The names of the tables in order. -/
def names (j : Job) : List TableName := j.scans.keys

/-- The scan of a table, if it is configured. -/
def scan? (j : Job) (table : TableName) : Option TableScan := j.scans.get? table

/-- The iterators of a table; one that is not configured has none. -/
def iterators (j : Job) (table : TableName) : List IteratorSetting :=
  ((j.scan? table).map TableScan.iterators).getD []

/-- The columns of a table; one that is not configured has none. -/
def columns (j : Job) (table : TableName) : List Column :=
  ((j.scan? table).map TableScan.columns).getD []

end Job

end ScanPlanner
