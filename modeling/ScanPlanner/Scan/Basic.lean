import ScanPlanner.KeyRange.Basic
import ScanPlanner.Scan.Column

/-!
# Scans of tables

What a job wants to read of one table, and how. A batch needs adjusted ranges, and it is not
available to scans that are offline or isolated or run their iterators locally (`TableScan.check`).
-/

namespace ScanPlanner

/-- What the ranges of one batch have in common. -/
inductive Grouping where
  | extent
  | node
deriving DecidableEq

namespace Grouping

/-- The groupings, in their order. -/
def all : List Grouping := [.extent, .node]

/-- The value that stands for a grouping. -/
def value : Grouping → String
  | .extent => "extent"
  | .node => "node"

/-- The name of a grouping. -/
def name : Grouping → String
  | .extent => "EXTENT"
  | .node => "NODE"

/-- The grouping that a value stands for. -/
def ofValue (v : Json) : Result Grouping :=
  match all.find? fun g => v = .text g.value with
  | some g => .ok g
  | none => .error (.invalid (.noChoice v.quoted "BatchGrouping"))

end Grouping

/-- The scan of one table. -/
structure TableScan where
  ranges : List KeyRange
  /-- Ranges are merged, and cut where a tablet ends. -/
  adjust : Bool
  batch : Bool
  offline : Bool
  isolated : Bool
  localIterators : Bool
  grouping : Grouping
  columns : List Column
  iterators : List IteratorSetting
deriving DecidableEq

namespace TableScan

/-- The scan of a whole table. -/
def plain : TableScan := ⟨[], true, false, false, false, false, .extent, [], []⟩

/-- The modes of the scan have batches. -/
def supportsBatch (s : TableScan) : Bool := !(s.offline || s.isolated || s.localIterators)

/-- Refuses a scan whose modes do not go together. -/
def check (s : TableScan) (table : TableName) : Result Unit :=
  if s.batch && !s.supportsBatch then .error (.refused (.batchUnavailable table.shown))
  else if s.batch && !s.adjust then .error (.refused (.batchUnadjusted table.shown))
  else .ok ()

end TableScan

end ScanPlanner
