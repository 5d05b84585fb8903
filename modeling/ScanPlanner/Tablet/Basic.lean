import ScanPlanner.Tablet.Extent

/-!
# Tablets

What the metadata says about one tablet: its extent, the node that hosts it now, if any, and the
node that hosted it last, which still holds its files nearby.
-/

namespace ScanPlanner

/-- The metadata of one tablet. -/
structure Tablet where
  extent : Extent
  /-- The node that hosts the tablet; none while it is unassigned or moving. -/
  location : Option Address
  /-- The node that hosted the tablet last. -/
  lastLocation : Option Address
deriving DecidableEq

namespace Tablet

/-- Reads a tablet. -/
def ofJson (v : Json) : Result Tablet := do
  let extent ← Extent.ofJson v
  let location ← v.memberOrNull "location"
  let lastLocation ← v.memberOrNull "lastLocation"
  return ⟨extent, location.given?, lastLocation.given?⟩

/-- Writes a tablet. -/
def toJson (t : Tablet) : Json :=
  .object (t.extent.members ++ [
    ("location", .ofGiven t.location), ("lastLocation", .ofGiven t.lastLocation)])

/-- Tablets in ascending order of their extents. -/
def sort (ts : List Tablet) : Result (List Tablet) := Extent.sortOn Tablet.extent ts

end Tablet

end ScanPlanner
