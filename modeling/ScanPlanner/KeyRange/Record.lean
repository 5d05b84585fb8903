import ScanPlanner.KeyRange.Basic
import ScanPlanner.Json.Record

/-!
# Ranges as records

A range is written with its two keys and what it says about its ends; null stands for no key. On
reading, an end is closed unless it is said otherwise.
-/

namespace ScanPlanner

/-- Reads a key, which any value can be; null stands for none. -/
def RowKey.ofJson (v : Json) : Result (Option RowKey) := .ok (ofValue? v)

/-- Writes a key; null stands for none. -/
def RowKey.toJson : Option RowKey → Json
  | none => .null
  | some k => k.value

namespace KeyRange

/-- Reads a range. -/
def ofJson (v : Json) : Result KeyRange := do
  let start ← RowKey.ofJson (← v.memberOrNull "start")
  let last ← RowKey.ofJson (← v.memberOrNull "end")
  let startFlag := (← v.member? "startInclusive").getD (.bool true)
  let lastFlag := (← v.member? "endInclusive").getD (.bool true)
  make (start.map (⟨·, startFlag⟩)) (last.map (⟨·, lastFlag⟩))

/-- Writes a range. -/
def toJson (r : KeyRange) : Json :=
  .object [
    ("start", RowKey.toJson (r.lower.map Edge.key)),
    ("end", RowKey.toJson (r.upper.map Edge.key)),
    ("startInclusive", flag r.lower), ("endInclusive", flag r.upper)]

end KeyRange

end ScanPlanner
