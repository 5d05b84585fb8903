import ScanPlanner.Comparison
import ScanPlanner.Json.Record
import ScanPlanner.KeyRange.Record
import ScanPlanner.Sorting

/-!
# Extents

The key boundary of one tablet: the rows after the previous end row, up to its own end row. Either
may be missing, which leaves the extent unbounded on that side. Extents are ordered by the id of
their table, then by their end row, where the missing one comes last; the previous end row has no
part in the order, so two different extents may tie.
-/

namespace ScanPlanner

/-- The cut behind a previous end row. -/
def Cut.behind : Option RowKey → Cut
  | none => .bottom
  | some k => .after k

/-- The cut behind an end row. -/
def Cut.upTo : Option RowKey → Cut
  | none => .top
  | some k => .after k

/-- The key boundary of a tablet. -/
structure Extent where
  tableId : TableId
  prev : Option RowKey
  last : Option RowKey
  ordered : Cut.behind prev < Cut.upTo last
deriving DecidableEq

namespace Extent

/-- What tells extents apart. -/
def identity (e : Extent) : Json × Option RowKey × Option RowKey :=
  (e.tableId.canonical, e.prev, e.last)

instance : BEq Extent := Identity.beq identity

instance : EquivBEq Extent := Identity.equivBEq identity

/-- The extent can be looked up, which takes an id and rows without parts. -/
def isKey (e : Extent) : Bool :=
  e.tableId.isScalar && e.prev.all RowKey.isScalar && e.last.all RowKey.isScalar

/-- The extent with the given rows, if they are in order. What is no number can be compared with a
number, but it is not in order with any. -/
def make (tableId : TableId) (prev last : Option RowKey) : Result Extent :=
  if h : RowKey.toldEnds prev last = true ∧ Cut.behind prev < Cut.upTo last then
    .ok ⟨tableId, prev, last, h.2⟩
  else match prev, last with
    | some p, some l =>
      .error (if (p.before? l).isSome then .invalid (.extentOrder p l) else .unlike)
    | _, _ => .error .unlike

/-- The rows of the extent as a range: open below and closed above. -/
def rows (e : Extent) : KeyRange where
  lower := e.prev.map (⟨·, .bool false⟩)
  upper := e.last.map (⟨·, .bool true⟩)
  nonempty := by
    have h := e.ordered
    cases hp : e.prev <;> cases hl : e.last <;> simp only [hp, hl] at h <;> exact h

/-- The row lies in the extent. -/
def contains? (e : Extent) (row : Option RowKey) : Result Bool := e.rows.contains? row

/-- The extent `p` ends exactly where `e` begins. -/
def follows (e p : Extent) : Bool :=
  p.tableId == e.tableId && p.last.isSome && p.last == e.prev

/-- The order of the extents can be told. Extents of one table that end at the same row tie,
whatever that row is. -/
def comparable (a b : Extent) : Bool :=
  if a.tableId == b.tableId then a.last == b.last || alikeKeys a.last.toList b.last.toList
  else (a.tableId.before? b.tableId).isSome

/-- The first extent comes before the second one, if their order can be told. -/
def isBefore (a b : Extent) : Bool :=
  if a.tableId == b.tableId then decide (Cut.upTo a.last < Cut.upTo b.last)
  else a.tableId.isBefore b.tableId

/-- The first extent comes before the second one. -/
def before? (a b : Extent) : Result Bool :=
  if comparable a b then .ok (isBefore a b) else .error .unlike

/-- Values in ascending order of their extents, those that tie in the order given. -/
def sortOn {α : Type} (extent : α → Extent) (xs : List α) : Result (List α) :=
  Sorting.sort? (fun a b => comparable (extent a) (extent b))
    (fun a b => !isBefore (extent b) (extent a)) xs

/-- Extents in ascending order. -/
def sort (es : List Extent) : Result (List Extent) := sortOn id es

/-- A row in an extent's short text. -/
def shownRow : Option RowKey → String
  | none => "<"
  | some k => ";" ++ k.shown

/-- The short text of an extent: id, end row, previous end row. -/
def shown (e : Extent) : String := e.tableId.shown ++ shownRow e.last ++ shownRow e.prev

/-- The full text of an extent. -/
def quoted (e : Extent) : String :=
  "Extent(table_id=" ++ e.tableId.quoted ++ ", prev_end_row=" ++
    RowKey.quotedOrNone e.prev ++ ", end_row=" ++ RowKey.quotedOrNone e.last ++ ")"

/-- Reads an extent. -/
def ofJson (v : Json) : Result Extent := do
  let tableId ← v.require "tableId"
  let prev ← RowKey.ofJson (← v.memberOrNull "prevEndRow")
  let last ← RowKey.ofJson (← v.memberOrNull "endRow")
  make tableId prev last

/-- The members of an extent's record. -/
def members (e : Extent) : List (String × Json) := [
  ("tableId", e.tableId), ("prevEndRow", RowKey.toJson e.prev), ("endRow", RowKey.toJson e.last)]

/-- Writes an extent. -/
def toJson (e : Extent) : Json := .object e.members

/-- Two extents compared. -/
def compare (a b : Extent) : Comparison :=
  ⟨a == b, a.before? b, Json.sameDigest? (a.isKey && b.isKey) a.toJson b.toJson⟩

end Extent

end ScanPlanner
