import ScanPlanner.Tablet.Basic

/-!
# Binnings

Ranges assigned to tablets and their nodes: for each node address and each extent on that node, the
ranges in the order in which they were added. The bins keep the order of their first range, but are
walked by address and then by extent (`items`), and that first order has no part in whether two
binnings are the same. Only what can be looked up gets a bin: an address and a table id without
parts.
-/

namespace ScanPlanner

/-- Ranges by node and extent. -/
structure Binning where
  bins : Ledger Address (Ledger Extent (List KeyRange))
deriving DecidableEq

/-- The ranges of one extent on one node. -/
structure Bin where
  location : Address
  extent : Extent
  ranges : List KeyRange
deriving DecidableEq

namespace Binning

/-- No ranges at all. -/
def empty : Binning := ⟨[]⟩

/-- Assigns one range more. -/
def add (b : Binning) (location : Address) (extent : Extent) (range : KeyRange) : Binning :=
  ⟨b.bins.alter location fun extents =>
    (extents.getD []).alter extent fun ranges => ranges.getD [] ++ [range]⟩

/-- Assigns one range more, if the address and the extent can be looked up. -/
def assign (b : Binning) (location : Address) (extent : Extent) (range : KeyRange) :
    Result Binning :=
  if location.isScalar && extent.isKey then .ok (b.add location extent range) else .error .unlike

/-- The addresses in ascending order. -/
def locations (b : Binning) : Result (List Address) :=
  Sorting.sort? Json.comparable (fun a b => !b.isBefore a) b.bins.keys

/-- The extents on a node, with their ranges. -/
def extents (b : Binning) (location : Address) : Ledger Extent (List KeyRange) :=
  (b.bins.get? location).getD []

/-- The ranges of an extent on a node. -/
def ranges (b : Binning) (location : Address) (extent : Extent) : List KeyRange :=
  ((b.extents location).get? extent).getD []

/-- The bins of a node in the order of their extents. -/
def binsAt (b : Binning) (location : Address) : Result (List Bin) := do
  let sorted ← Extent.sortOn Prod.fst (b.extents location)
  return sorted.map fun e => ⟨location, e.1, e.2⟩

/-- The bins by address, then by extent. -/
def items (b : Binning) : Result (List Bin) := do
  return (← (← b.locations).mapM b.binsAt).flatten

/-- There are no ranges. -/
def isEmpty (b : Binning) : Bool := b.bins.isEmpty

/-- The number of ranges, each counted once for every extent that it is assigned to. -/
def numRanges (b : Binning) : Result Nat := do
  return ((← b.items).flatMap Bin.ranges).length

/-- The first ledger's entries are in the second one. -/
def within {κ ν : Type} [BEq κ] (same : ν → ν → Bool) (a b : Ledger κ ν) : Bool :=
  a.all fun entry => match b.get? entry.1 with
    | some value => same entry.2 value
    | none => false

/-- The ledgers have the same entries, in whatever order. -/
def sameEntries {κ ν : Type} [BEq κ] (same : ν → ν → Bool) (a b : Ledger κ ν) : Bool :=
  a.length == b.length && within same a b

/-- The binnings assign the same ranges. -/
def same (a b : Binning) : Bool :=
  sameEntries (sameEntries fun xs ys => xs == ys) a.bins b.bins

/-- A binning in a message, in the order of the first ranges. -/
def quoted (b : Binning) : String :=
  let ranges (rs : List KeyRange) := "[" ++ ", ".intercalate (rs.map KeyRange.quoted) ++ "]"
  let extents (es : Ledger Extent (List KeyRange)) :=
    "\x7b" ++ ", ".intercalate (es.map fun e => e.1.quoted ++ ": " ++ ranges e.2) ++ "\x7d"
  "NodeBinning(\x7b" ++
    ", ".intercalate (b.bins.map fun e => e.1.quoted ++ ": " ++ extents e.2) ++ "\x7d)"

end Binning

/-- The outcome of one attempt to locate ranges. -/
structure Located where
  binning : Binning
  /-- The ranges that could not be located, in the order given. -/
  unresolved : List KeyRange
deriving DecidableEq

/-- Every range was located. -/
def Located.isComplete (l : Located) : Bool := l.unresolved.isEmpty

end ScanPlanner
