import ScanPlanner.Effect
import ScanPlanner.Tablet.Covering

/-!
# Catalogs

Read access to the metadata of tables: what id a name has now, and what is known about the table
with an id. `Catalog` says what can be asked; where the answers come from is up to the catalog.
-/

namespace ScanPlanner

/-- The administrative state of a table. -/
inductive TableState where
  | online
  | offline
deriving DecidableEq

namespace TableState

/-- The name of a state. -/
def name : TableState → String
  | .online => "ONLINE"
  | .offline => "OFFLINE"

/-- The state of a name. -/
def ofName (v : Json) : Result TableState :=
  if v = .text "ONLINE" then .ok .online
  else if v = .text "OFFLINE" then .ok .offline
  else .error (.invalid (.noChoice v.quoted "TableState"))

end TableState

/-- The kinds of clusters that a job plans against. -/
inductive BackendKind where
  | live
  | inMemory
deriving DecidableEq

/-- What can be asked about the tables of a world `ω`. -/
structure Catalog (ω : Type) where
  /-- The id of the table that has a name. -/
  tableId : TableName → Effect ω TableId
  /-- There is a table with the id. -/
  tableExists : TableId → Effect ω Bool
  /-- The state of the table with the id. -/
  tableState : TableId → Effect ω TableState
  /-- The tablets of the table with the id, in ascending order. -/
  tablets : TableId → Effect ω (List Tablet)

end ScanPlanner
