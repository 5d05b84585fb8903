import ScanPlanner.Json.Basic
import ScanPlanner.Number.Shortest
import ScanPlanner.Text.Quoted

/-!
# Values in messages

How a value is shown inside a message: null is `None`, the truth values are capitalised, texts
inside lists and objects are quoted. `shown` gives a text alone without quotes, `quoted` with them.
-/

namespace ScanPlanner.Json

/-- The text of a truth value. -/
def showBool (b : Bool) : String := if b then "True" else "False"

mutual

/-- A value as it is shown inside a list or an object. The texts are written by `write`. -/
def quotedBy (write : String → String) : Json → String
  | .null => "None"
  | .bool b => showBool b
  | .int n => toString n
  | .real x => x.text
  | .text s => write s
  | .list items => "[" ++ String.intercalate ", " (quotedItems write items) ++ "]"
  | .object members => "\x7b" ++ String.intercalate ", " (quotedMembers write members) ++ "\x7d"

/-- The items of a list. -/
def quotedItems (write : String → String) : List Json → List String
  | [] => []
  | item :: rest => quotedBy write item :: quotedItems write rest

/-- The members of an object. -/
def quotedMembers (write : String → String) : List (String × Json) → List String
  | [] => []
  | (name, value) :: rest =>
    (write name ++ ": " ++ quotedBy write value) :: quotedMembers write rest

end

/-- A value with its texts quoted. -/
def quoted (v : Json) : String := v.quotedBy Text.quoted

/-- A value as it is shown alone. -/
def shown : Json → String
  | .text s => s
  | v => v.quoted

end ScanPlanner.Json
