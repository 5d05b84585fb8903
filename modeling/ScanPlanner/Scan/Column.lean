import ScanPlanner.Identity
import ScanPlanner.Json.Record
import ScanPlanner.Sorting

/-!
# Columns and iterators

What a scan fetches, and the iterators that run beside the data. Both are carried without being
understood, whatever values stand for their names. The properties of an iterator have no part in
whether two iterators are the same.
-/

namespace ScanPlanner

/-- A family of columns, or one column of it. -/
structure Column where
  family : Json
  /-- The column of the family; null stands for all of them. -/
  qualifier : Json
deriving DecidableEq

namespace Column

/-- What tells columns apart. -/
def identity (c : Column) : Json × Json := (c.family.canonical, c.qualifier.canonical)

instance : BEq Column := Identity.beq identity

instance : EquivBEq Column := Identity.equivBEq identity

/-- The column can be looked up, which takes values without parts. -/
def isKey (c : Column) : Bool := c.family.isScalar && c.qualifier.isScalar

/-- Reads a column. -/
def ofJson (v : Json) : Result Column := do
  return ⟨← v.require "family", ← v.memberOrNull "qualifier"⟩

/-- Writes a column. -/
def toJson (c : Column) : Json :=
  .object [("family", c.family), ("qualifier", c.qualifier)]

end Column

/-- An iterator that the scanner applies. -/
structure IteratorSetting where
  /-- The iterators with the least numbers come first. -/
  priority : Int
  name : Json
  implementation : Json
  properties : Ledger String Json
deriving DecidableEq

namespace IteratorSetting

/-- What tells iterators apart. -/
def identity (i : IteratorSetting) : Int × Json × Json :=
  (i.priority, i.name.canonical, i.implementation.canonical)

instance : BEq IteratorSetting := Identity.beq identity

instance : EquivBEq IteratorSetting := Identity.equivBEq identity

/-- The iterator can be looked up, which takes names without parts. -/
def isKey (i : IteratorSetting) : Bool := i.name.isScalar && i.implementation.isScalar

/-- Reads an iterator. -/
def ofJson (v : Json) : Result IteratorSetting := do
  let priority ← (← v.require "priority").toInteger
  let name ← v.require "name"
  let implementation ← v.require "iteratorClass"
  let properties ← (← v.memberOrNull "properties").membersOf
  return ⟨priority, name, implementation, properties⟩

/-- Writes an iterator. -/
def toJson (i : IteratorSetting) : Json :=
  .object [
    ("priority", .int i.priority), ("name", i.name),
    ("iteratorClass", i.implementation), ("properties", .object i.properties)]

/-- Iterators by priority, those of one priority in the order given. -/
def sort (is : List IteratorSetting) : List IteratorSetting :=
  Sorting.sort (fun a b => decide (a.priority ≤ b.priority)) is

end IteratorSetting

end ScanPlanner
