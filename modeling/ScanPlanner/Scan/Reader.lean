import ScanPlanner.Scan.Job

/-!
# What a reader needs

The settings with which a reader opens a split. What the split has recorded wins; the rest comes
from the job's scan of the table that the split was planned for, even if the table has another name
by now.
-/

namespace ScanPlanner

/-- The settings of a reader. -/
structure ReaderSettings where
  tableName : TableName
  tableId : TableId
  ranges : List KeyRange
  batch : Bool
  offline : Json
  isolated : Json
  localIterators : Json
  /-- The iterators by priority. -/
  iterators : List IteratorSetting
  columns : List Column
  authorizations : List Json
deriving DecidableEq

/-- The settings for a split of a job. -/
def ReaderSettings.ofSplit (s : Split) (j : Job) (authorizations : List Json) : ReaderSettings :=
  let scan := (j.scan? s.tableName).getD .plain
  { tableName := s.tableName
    tableId := s.tableId
    ranges := s.ranges
    batch := s.work.isBatch
    offline := s.snapshot.offline.given?.getD (.bool scan.offline)
    isolated := s.snapshot.isolated.given?.getD (.bool scan.isolated)
    localIterators := s.snapshot.localIterators.given?.getD (.bool scan.localIterators)
    iterators := IteratorSetting.sort (s.snapshot.iterators.getD scan.iterators)
    columns := s.snapshot.columns.getD scan.columns
    authorizations := s.snapshot.authorizations.getD authorizations }

end ScanPlanner
