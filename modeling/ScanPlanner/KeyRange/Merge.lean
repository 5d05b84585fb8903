import ScanPlanner.KeyRange.Basic
import ScanPlanner.Sorting

/-!
# Merging ranges

Ranges that overlap or touch are merged into the shortest ascending list that covers the same keys.
`normalize` makes the ranges to locate out of the requested ones: no ranges at all ask for the whole
table.
-/

namespace ScanPlanner.KeyRange

/-- The keys at the ends of some spans. -/
def spanKeys (ss : List Span) : List RowKey := ss.flatMap Span.keys

/-- The union of some spans with one range more, if their keys are of one sort. -/
def addTo (ss : List Span) (r : KeyRange) : Result (List Span) :=
  if alikeKeys (spanKeys ss) r.keys then .ok (r.span.insert ss) else .error .unlike

/-- The union of ranges. -/
def union (rs : List KeyRange) : Result (List Span) := rs.foldlM addTo []

/-- The ranges with those merged that overlap or touch, in ascending order. -/
def merge (rs : List KeyRange) : Result (List KeyRange) := do
  return (← union rs).map ofSpan

/-- The ranges to locate. -/
def normalize (rs : List KeyRange) (adjust : Bool) : Result (List KeyRange) := do
  let normalized ← if adjust then merge rs else .ok rs
  return if normalized.isEmpty then [everything] else normalized

/-- The ranges in ascending order, equal ones in the order given. -/
def sort (rs : List KeyRange) : Result (List KeyRange) :=
  Sorting.sort? comparable (fun a b => decide (¬ b < a)) rs

end ScanPlanner.KeyRange
