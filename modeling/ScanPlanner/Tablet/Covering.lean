import ScanPlanner.KeyRange.Merge
import ScanPlanner.Tablet.Basic

/-!
# Covering tablets

The tablets that together cover a range. In key order they are neighbours, so the search ends at the
first tablet beside the range that follows one within it. A part of the range without a tablet is a
hole in the chain, usually a division or a merger caught halfway, and then there is no covering.
-/

namespace ScanPlanner.Tablet

/-- Collects the tablets that overlap the range, with the union of their rows, up to the first one
behind them that does not. -/
def collect (range : KeyRange) : List Tablet → List Tablet → List Span →
    Result (List Tablet × List Span)
  | [], found, covered => .ok (found, covered)
  | t :: ts, found, covered => do
    if ← t.extent.rows.overlaps? range then
      collect range ts (found ++ [t]) (← KeyRange.addTo covered t.extent.rows)
    else if found.isEmpty then collect range ts found covered
    else .ok (found, covered)

/-- The tablets that cover the range, or none if they leave a part of it uncovered. -/
def covering? (tablets : List Tablet) (range : KeyRange) : Result (Option (List Tablet)) := do
  let (found, covered) ← collect range tablets [] []
  if found.isEmpty then return none
  if !alikeKeys (KeyRange.spanKeys covered) range.keys then throw .unlike
  return if Span.someCovers covered range.span then some found else none

end ScanPlanner.Tablet
