import ScanPlanner.Catalog
import ScanPlanner.Service.Exchange
import ScanPlanner.Text.Upper

/-!
# The catalog of a metadata service

The metadata of a live cluster, asked from its service. A resource that the service does not have is
a table that does not exist; no other error is taken for that. The service may send the tablets in
any order and the state in letters of any case.
-/

namespace ScanPlanner.ServiceClient

variable {α : Type}

/-- The failure says that there is no such resource. -/
def isNoSuchResource : Failure → Bool
  | .service ⟨.noSuchResource _ _, _⟩ => true
  | _ => false

/-- The value, or none if there is no such resource. -/
def found? (effect : Effect Line α) : Effect Line (Option α) := do
  try return some (← effect)
  catch f => if isNoSuchResource f then return none else throw f

/-- The value; a resource that is not there makes the given failure. -/
def foundOr (missing : Failure) (effect : Effect Line α) : Effect Line α := do
  match ← found? effect with
  | some a => return a
  | none => throw missing

/-- A name or an id that can be part of a path, which takes a text that can be written as bytes. -/
def segment (v : Json) : Effect Line String := Effect.ofResult v.asWholeText

/-- The table with an id. -/
def tableById (c : ServiceClient) (id : TableId) : Effect Line TableReply := do
  c.get TableReply.ofJson (some (ResourcePath.tableById (← segment id))) []

/-- The state that a table is sent with. -/
def stateOf (t : TableReply) : Result TableState :=
  match t.state with
  | .text s => TableState.ofName (.text (Text.upper s))
  | _ => .error .noMember

/-- The tablets sent, in ascending order. -/
def tabletsOf (t : TabletsReply) : Result (List Tablet) := do
  let tablets ← (t.tablets.getD []).mapM fun tablet => match tablet with
    | some tablet => .ok tablet
    | none => .error .noMember
  Tablet.sort tablets

/-- The catalog that a service keeps. -/
def catalog (c : ServiceClient) : Catalog Line where
  tableId name := do
    let path := ResourcePath.tableByName (← segment name)
    let table ← foundOr (.unknownTable name) (c.get TableReply.ofJson (some path) [])
    return table.id
  tableExists id := do return (← found? (c.tableById id)).isSome
  tableState id := do
    Effect.ofResult (stateOf (← foundOr (.unknownTableId id) (c.tableById id)))
  tablets id := do
    let path := ResourcePath.tablets (← segment id)
    Effect.ofResult (tabletsOf (← foundOr (.unknownTableId id)
      (c.get TabletsReply.ofJson (some path) [])))

end ScanPlanner.ServiceClient
