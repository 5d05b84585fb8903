import ScanPlanner.KeyRange.Merge
import ScanPlanner.Planning.Locating
import ScanPlanner.Planning.Splitting
import ScanPlanner.Scan.Job
import ScanPlanner.Scan.Plan

/-!
# Planning

The splits of a job, one table after the other: the name of the table is resolved once, its ranges
are located, and the binning is turned into splits. Either all tables are planned or planning fails,
and then with a refusal or with `tableFailed`, which names the table. While planning the log has the
level that the job asks for, and afterwards, in either case, the one that it had before.
-/

namespace ScanPlanner

namespace Step

variable {ω α : Type}

/-- Does something while the log has another level. -/
def atLevel (level : Option Int) (step : Step ω α) : Step ω α := fun session =>
  let (result, after) := step.run { session with level := level.getD session.level }
  (result, { after with level := session.level })

/-- Refusals pass; any other failure becomes one to plan a table. -/
def forTable (table : TableName) (step : Step ω α) : Step ω α := do
  try step
  catch f => throw (if f.isPlanning then f else .tableFailed table.shown f)

end Step

namespace Planning

variable {ω : Type}

/-- The pauses that a job asks for. -/
def backoff (given : Settings) : Result Backoff := do
  Backoff.make (← given.number .backoffLeast) (← given.number .backoffJitter)

/-- Plans one table, and gives the schedule of the pauses that were not needed. -/
def planTable (c : Collaborators ω) (job : Job) (authorizations : List Json) (bookSize : Int)
    (table : TableName) (scan : TableScan) (schedule : Schedule ω) :
    Step ω (List Split × Schedule ω) := do
  Step.ofResult (scan.check table)
  Step.forTable table do
    let id ← Step.ask .tableId table (c.backend.locator.tableId table)
    let ranges ← Step.ofResult (KeyRange.normalize scan.ranges scan.adjust)
    Step.note .debug .planning
      ("Locating " ++ toString ranges.length ++ " ranges of table " ++ table.shown ++ " (id=" ++
        id.shown ++ ", offline=" ++ Json.showBool scan.offline ++ ")")
    let pauses ← Step.ofResult (backoff job.settings)
    let (binning, rest) ← Locating.locate c pauses id ranges scan.offline schedule
    let frame : SplitFrame := ⟨table, id, Snapshot.ofScan scan authorizations⟩
    return (← Splitting.make c frame binning scan bookSize, rest)

/-- Plans some tables, one after the other. -/
def planTables (c : Collaborators ω) (job : Job) (authorizations : List Json) (bookSize : Int) :
    List (TableName × TableScan) → Schedule ω → Step ω (List Split)
  | [], _ => return []
  | (table, scan) :: rest, schedule => do
    let (splits, schedule) ← planTable c job authorizations bookSize table scan schedule
    return splits ++ (← planTables c job authorizations bookSize rest schedule)

/-- Plans a job. -/
def plan (c : Collaborators ω) (job : Job) (authorizations : List Json) (schedule : Schedule ω) :
    Step ω Plan := do
  if job.scans.isEmpty then throw (.refused .noTables)
  let level ← Step.ofResult (job.settings.logLevel .none)
  let (_, bookSize) ← Step.ofResult (job.settings.hostBookSize .none)
  Step.atLevel level do
    let splits ← planTables c job authorizations bookSize job.scans schedule
    Step.note .info .planning
      ("Planned " ++ toString splits.length ++ " splits for " ++ toString job.scans.length ++
        " tables")
    return ⟨splits⟩

end Planning

end ScanPlanner
