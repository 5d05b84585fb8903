import ScanPlanner.Scan.Split

/-!
# Plans

The splits planned for a job, table by table, and a summary of them in columns. The names, ids and
hosts in the summary are texts or missing.
-/

namespace ScanPlanner

/-- The splits of a job. -/
structure Plan where
  splits : List Split

/-- A summary of a plan: each column has one entry for each split. -/
structure PlanSummary where
  tableNames : List Json
  tableIds : List Json
  kinds : List String
  rangeCounts : List Nat
  ranges : List (List String)
  locations : List (List Json)

namespace Plan

/-- The splits of one table. -/
def splitsFor (p : Plan) (table : TableName) : List Split :=
  p.splits.filter fun s => s.tableName == table

/-- Refuses a value that cannot stand in a column of texts, which holds them as bytes. -/
def checkEntry : Json → Result Unit
  | .text s => if Text.isWhole s then .ok () else .error .halfCharacter
  | .null => .ok ()
  | _ => .error .notText

/-- The summary of the plan. Of the entries that are refused the first one in the order of the
columns counts. -/
def summary (p : Plan) : Result PlanSummary := do
  let summary : PlanSummary := {
    tableNames := p.splits.map Split.tableName
    tableIds := p.splits.map Split.tableId
    kinds := p.splits.map fun s => s.work.kind
    rangeCounts := p.splits.map fun s => s.ranges.length
    ranges := p.splits.map fun s => s.ranges.map KeyRange.shown
    locations := p.splits.map Split.locations }
  (summary.tableNames ++ summary.tableIds ++ summary.ranges.flatten.map Json.text ++
    summary.locations.flatten).forM checkEntry
  return summary

end Plan

end ScanPlanner
