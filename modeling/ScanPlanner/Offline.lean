import ScanPlanner.Binning
import ScanPlanner.Catalog

/-!
# Assigning ranges of offline tables

An offline table is scanned from its files, and those of a tablet are most likely near the node that
hosted it last. Its metadata is consistent once tablets cover each range and none of them is hosted
any more; until then an `Obstacle` stands in the way of a binning.
-/

namespace ScanPlanner

/-- Why the metadata of an offline table is not consistent yet. -/
inductive Obstacle where
  | hole (range : KeyRange)
  | hosted (extent : Extent) (location : Address)
deriving DecidableEq

/-- Why there is no binning. -/
inductive Setback where
  /-- The metadata is not consistent yet. -/
  | obstacle (why : Obstacle)
  | failed (why : Failure)
deriving DecidableEq

namespace Offline

/-- The node that hosted a tablet last; the empty address stands for none. -/
def lastAddress (t : Tablet) : Address :=
  match t.lastLocation with
  | some location => if location.isPresent then location else .text ""
  | none => .text ""

/-- Assigns a range to the node that hosted a tablet last, if none hosts it now. -/
def addTablet (range : KeyRange) (b : Binning) (t : Tablet) : Except Setback Binning :=
  match t.location with
  | some location => .error (.obstacle (.hosted t.extent location))
  | none => (b.assign (lastAddress t) t.extent range).mapError Setback.failed

/-- Assigns a range to the tablets that cover it. -/
def addRange (tablets : List Tablet) (b : Binning) (range : KeyRange) : Except Setback Binning := do
  match ← (Tablet.covering? tablets range).mapError Setback.failed with
  | none => throw (.obstacle (.hole range))
  | some covering => covering.foldlM (addTablet range) b

/-- Assigns ranges to the tablets of an offline table. -/
def ofTablets (tablets : List Tablet) (ranges : List KeyRange) : Except Setback Binning :=
  ranges.foldlM (addRange tablets) .empty

/-- The note on an obstacle. -/
def note (id : TableId) (why : Obstacle) : Note :=
  ⟨.debug, .offline, match why with
    | .hole range => "Metadata of table " ++ id.shown ++ " has a hole around " ++ range.shown
    | .hosted extent location =>
      "Tablet " ++ extent.shown ++ " is still hosted by " ++ location.shown⟩

/-- Assigns ranges of the table with an id, which has to be offline, or gives none while the
metadata is not consistent. -/
def bin {ω : Type} (c : Catalog ω) (id : TableId) (ranges : List KeyRange) :
    Effect ω (Option Binning) := do
  if (← c.tableState id) ≠ .offline then throw (.refused (.tableOnline id))
  match ofTablets (← c.tablets id) ranges with
  | .ok binning => return some binning
  | .error (.failed why) => throw why
  | .error (.obstacle why) =>
    Effect.note (note id why)
    return none

end Offline

end ScanPlanner
