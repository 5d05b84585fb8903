import ScanPlanner.Comparison
import ScanPlanner.Scan.Basic

/-!
# Splits

A split is the work of one reader: one range of a table, or a batch of ranges, the hosts where it is
best done, and the settings of the scan as they were when the split was planned (`Snapshot`). It
keeps the id that the table had then, so it still reads the same table after that has been renamed.

A split that is read from a record keeps the values that it finds there, and two splits are the same
if their values mean the same; the properties of their iterators do not count.
-/

namespace ScanPlanner

/-- The settings of a scan. A mode that was not recorded is null, and a list none. -/
structure Snapshot where
  offline : Json
  isolated : Json
  localIterators : Json
  iterators : Option (List IteratorSetting)
  columns : Option (List Column)
  authorizations : Option (List Json)
deriving DecidableEq

namespace Snapshot

/-- The settings are equal: all that was recorded means the same. -/
def same (s t : Snapshot) : Bool :=
  s.offline == t.offline && s.isolated == t.isolated && s.localIterators == t.localIterators
    && s.iterators == t.iterators && s.columns == t.columns
    && s.authorizations == t.authorizations

instance : BEq Snapshot := ⟨same⟩

/-- The settings can be looked up, which takes values without parts. -/
def isKey (s : Snapshot) : Bool :=
  s.offline.isScalar && s.isolated.isScalar && s.localIterators.isScalar
    && (s.iterators.getD []).all IteratorSetting.isKey && (s.columns.getD []).all Column.isKey
    && (s.authorizations.getD []).all Json.isScalar

/-- The settings of a scan that is planned. -/
def ofScan (s : TableScan) (authorizations : List Json) : Snapshot :=
  ⟨.bool s.offline, .bool s.isolated, .bool s.localIterators, some s.iterators, some s.columns,
    some authorizations⟩

/-- Reads a list, or nothing in place of null. -/
def listOrNull {α : Type} (read : Json → Result α) (v : Json) : Result (Option (List α)) :=
  match v with
  | .null => .ok none
  | v => do return some (← (← v.items).mapM read)

/-- Reads recorded settings. -/
def ofJson (v : Json) : Result Snapshot := do
  let iterators ← v.memberOrNull "iterators"
  let columns ← v.memberOrNull "fetchedColumns"
  let authorizations ← v.memberOrNull "authorizations"
  let offline ← v.memberOrNull "offline"
  let isolated ← v.memberOrNull "isolatedScan"
  let localIterators ← v.memberOrNull "useLocalIterators"
  return ⟨offline, isolated, localIterators, ← listOrNull IteratorSetting.ofJson iterators,
    ← listOrNull Column.ofJson columns, ← listOrNull .ok authorizations⟩

/-- Writes a list, or null in place of none. -/
def listToJson {α : Type} (write : α → Json) : Option (List α) → Json
  | none => .null
  | some items => .list (items.map write)

/-- Writes recorded settings. -/
def toJson (s : Snapshot) : Json :=
  .object [
    ("offline", s.offline), ("isolatedScan", s.isolated),
    ("useLocalIterators", s.localIterators),
    ("iterators", listToJson IteratorSetting.toJson s.iterators),
    ("fetchedColumns", listToJson Column.toJson s.columns),
    ("authorizations", listToJson id s.authorizations)]

end Snapshot

/-- The ranges that one reader reads. -/
inductive Work where
  | single (range : KeyRange)
  | batch (ranges : List KeyRange)
deriving DecidableEq

namespace Work

/-- The ranges of the work. -/
def ranges : Work → List KeyRange
  | .single range => [range]
  | .batch ranges => ranges

/-- The work is a batch. -/
def isBatch : Work → Bool
  | .single _ => false
  | .batch _ => true

/-- The word for the kind of work. -/
def kind : Work → String
  | .single _ => "range"
  | .batch _ => "batch"

/-- Work of the given kind on the given ranges. -/
def ofKind (kind : Json) (ranges : List KeyRange) : Result Work :=
  if kind = .text "range" then
    match ranges with
    | [range] => .ok (.single range)
    | ranges => .error (.invalid (.splitRangeCount ranges.length))
  else if kind = .text "batch" then .ok (.batch ranges)
  else .error (.invalid (.splitKind kind))

end Work

/-- The work of one reader on a table. -/
structure Split where
  tableName : TableName
  tableId : TableId
  /-- The hosts to prefer, the best one first. -/
  locations : List Json
  snapshot : Snapshot
  work : Work
deriving DecidableEq

namespace Split

/-- The ranges that the split reads. -/
def ranges (s : Split) : List KeyRange := s.work.ranges

/-- The splits are equal: all that counts in them means the same. -/
def same (a b : Split) : Bool :=
  a.tableName == b.tableName && a.tableId == b.tableId && a.locations == b.locations
    && a.snapshot == b.snapshot && a.work.isBatch == b.work.isBatch && a.ranges == b.ranges

instance : BEq Split := ⟨same⟩

/-- The split can be looked up, which takes values without parts wherever they count. -/
def isKey (s : Split) : Bool :=
  s.tableName.isScalar && s.tableId.isScalar && s.locations.all Json.isScalar && s.snapshot.isKey
    && s.ranges.all KeyRange.isKey

/-- A split in a message. -/
def shown (s : Split) : String :=
  let tail := ", locations=" ++ (Json.list s.locations).quoted ++ ")"
  let table := "(table=" ++ s.tableName.shown ++ ", id=" ++ s.tableId.shown
  match s.work with
  | .single range => "RangeSplit" ++ table ++ ", range=" ++ range.shown ++ tail
  | .batch ranges =>
    "BatchSplit" ++ table ++ ", ranges=" ++ Text.quotedList (ranges.map KeyRange.shown) ++ tail

/-- Reads a split. -/
def ofJson (v : Json) : Result Split := do
  let kind ← v.memberOrNull "kind"
  let ranges ← (← v.memberItems "ranges").mapM KeyRange.ofJson
  let tableName ← v.require "tableName"
  let tableId ← v.require "tableId"
  let locations ← v.memberItems "locations"
  let snapshot ← v.memberOrNull "snapshot"
  let snapshot ← Snapshot.ofJson (if snapshot.isPresent then snapshot else .object [])
  return ⟨tableName, tableId, locations, snapshot, ← Work.ofKind kind ranges⟩

/-- Writes a split. -/
def toJson (s : Split) : Json :=
  .object [
    ("kind", .text s.work.kind), ("tableName", s.tableName), ("tableId", s.tableId),
    ("locations", .list s.locations),
    ("ranges", .list (s.ranges.map KeyRange.toJson)), ("snapshot", s.snapshot.toJson)]

/-- The split without what does not count in it. -/
def bare (s : Split) : Split :=
  let iterators := s.snapshot.iterators.map fun is => is.map fun i => { i with properties := [] }
  { s with snapshot := { s.snapshot with iterators } }

/-- The splits have the same digest, if they can be looked up. -/
def sameDigest? (a b : Split) : Result Bool :=
  Json.sameDigest? (a.isKey && b.isKey) a.bare.toJson b.bare.toJson

end Split

end ScanPlanner
