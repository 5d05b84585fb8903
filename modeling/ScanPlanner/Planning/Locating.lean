import ScanPlanner.Planning.Backoff

/-!
# Locating ranges

Ranges are located in attempts, each from metadata read afresh, until one is decisive. An online
table is given up when it has been deleted or taken offline; an offline table when it is online. An
attempt that decides nothing is followed by a pause, and there is no limit to their number: the
recursion is on the schedule of pauses.
-/

namespace ScanPlanner.Locating

variable {ω : Type}

/-- One attempt to locate ranges of an online table; it gives nothing if another one may do. -/
def attemptOnline (c : Collaborators ω) (id : TableId) (ranges : List KeyRange) :
    Step ω (Option Binning) := do
  Step.ask .invalidate id (c.backend.locator.invalidate id)
  let located ← Step.ask .resolve id (c.backend.locator.resolve id ranges)
  if located.isComplete then return some located.binning
  if !(← Step.ask .tableExists id (c.backend.locator.tableExists id)) then
    throw (.refused (.tableDeleted id))
  if (← Step.ask .tableState id (c.backend.locator.tableState id)) = .offline then
    throw (.refused (.tableOffline id))
  Step.note .warning .locating
    ("Unable to locate bins for specified ranges of table " ++ id.shown ++ ". Retrying.")
  return none

/-- One attempt to assign ranges of an offline table; it gives nothing if another one may do. -/
def attemptOffline (c : Collaborators ω) (id : TableId) (ranges : List KeyRange) :
    Step ω (Option Binning) := do
  match ← Step.ask .binOffline id (c.backend.binOffline id ranges) with
  | some binning => return some binning
  | none =>
    Step.note .warning .locating
      ("Some tablets of offline table " ++ id.shown ++ " are still hosted. Retrying.")
    return none

/-- Attempts and pauses in turn, where the next pause is the `count`-th one. It gives the result of
the first decisive attempt, and the schedule of the pauses that were not needed. -/
def retry (c : Collaborators ω) (b : Backoff) (attempt : Step ω (Option Binning)) (count : Nat) :
    Schedule ω → Step ω (Binning × Schedule ω)
  | [] => do
    match ← attempt with
    | some binning => return (binning, [])
    | none =>
      let _ ← b.pause c count none
      throw (.raised "no more sleeps scripted")
  | meanwhile :: rest => do
    match ← attempt with
    | some binning => return (binning, meanwhile :: rest)
    | none =>
      let _ ← b.pause c count (some meanwhile)
      retry c b attempt (count + 1) rest

/-- Locates ranges of the table with an id. -/
def locate (c : Collaborators ω) (b : Backoff) (id : TableId) (ranges : List KeyRange)
    (offline : Bool) (schedule : Schedule ω) : Step ω (Binning × Schedule ω) :=
  retry c b (if offline then attemptOffline c id ranges else attemptOnline c id ranges) 1 schedule

end ScanPlanner.Locating
