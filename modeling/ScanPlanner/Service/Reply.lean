import ScanPlanner.Tablet.Basic

/-!
# Replies of the metadata service

What the service sends: a table, the tablets of a table, or an error. Members that are not known are
ignored, and those that are missing are null; their values are taken as they are sent.
-/

namespace ScanPlanner

/-- A table. -/
structure TableReply where
  id : TableId
  name : Json
  state : Json
deriving DecidableEq

/-- Reads a table. -/
def TableReply.ofJson (v : Json) : Result TableReply := do
  return ⟨← v.memberOrNull "id", ← v.memberOrNull "name", ← v.memberOrNull "state"⟩

/-- The tablets of a table, where null may stand in place of a tablet and of all tablets. -/
structure TabletsReply where
  tablets : Option (List (Option Tablet))
deriving DecidableEq

namespace Json

/-- Reads a value; null stands for none. -/
def orNull {α : Type} (read : Json → Result α) (v : Json) : Result (Option α) :=
  match v with
  | .null => .ok none
  | v => do return some (← read v)

/-- Reads the items of a value; null stands for no list, and inside it for no item. -/
def listOrNull {α : Type} (read : Json → Result α) : Json → Result (Option (List (Option α))) :=
  orNull fun v => do (← v.items).mapM (orNull read)

end Json

/-- Reads tablets. -/
def TabletsReply.ofJson (v : Json) : Result TabletsReply := do
  return ⟨← Json.listOrNull Tablet.ofJson (← v.memberOrNull "tablets")⟩

/-- An error. -/
structure ErrorReply where
  resourceType : Json
  resourceName : Json
  message : Json
  code : Json
deriving DecidableEq

namespace ErrorReply

/-- Reads an error. -/
def ofJson (v : Json) : Result ErrorReply := do
  return ⟨← v.memberOrNull "resourceType", ← v.memberOrNull "resourceName",
    ← v.memberOrNull "message", ← v.memberOrNull "code"⟩

/-- The error that a status stands for, with a text in place of its message. -/
def ofStatus (message : String) (status : Int) : ErrorReply :=
  ⟨.null, .null, .text message, .int status⟩

end ErrorReply

end ScanPlanner
