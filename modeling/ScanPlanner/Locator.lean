import ScanPlanner.Binning
import ScanPlanner.Catalog
import ScanPlanner.Lru

/-!
# Locating the tablets of online tables

A locator assigns ranges to the nodes that host the tablets of an online table. A range is located
if tablets cover it and each of them is hosted; all others are reported back, together with the
binning of the located ones (`Located.ofTablets`).

`Locator.cached` keeps the tablets of each table that it has asked a catalog for, until it is told
that they may have changed.
-/

namespace ScanPlanner

/-- What can be asked about online tables. -/
structure Locator (ω : Type) where
  tableId : TableName → Effect ω TableId
  /-- Assigns ranges of the table with an id to nodes. -/
  resolve : TableId → List KeyRange → Effect ω Located
  /-- Forgets what is known about the tablets of a table. -/
  invalidate : TableId → Effect ω Unit
  tableExists : TableId → Effect ω Bool
  tableState : TableId → Effect ω TableState

namespace Located

/-- The node that hosts each of the tablets, if all are hosted. -/
def hosts? (tablets : List Tablet) : Option (List (Address × Extent)) :=
  tablets.mapM fun t => t.location.map (·, t.extent)

/-- Nothing asked, nothing located. -/
def empty : Located := ⟨.empty, []⟩

/-- Locates one range more, or reports it back. -/
def addRange (tablets : List Tablet) (l : Located) (range : KeyRange) : Result Located := do
  match (← Tablet.covering? tablets range).bind hosts? with
  | none => return { l with unresolved := l.unresolved ++ [range] }
  | some hosts =>
    let binning ← hosts.foldlM (fun b (location, extent) => b.assign location extent range)
      l.binning
    return { l with binning }

/-- Locates ranges among the tablets of a table. -/
def ofTablets (tablets : List Tablet) (ranges : List KeyRange) : Result Located :=
  ranges.foldlM (addRange tablets) empty

end Located

/-- A world with the tablets that are known of some tables. -/
structure Cached (ω : Type) where
  backing : ω
  known : Lru TableId (List Tablet)

namespace Locator

variable {ω α : Type}

/-- Does something in the world behind the cache. -/
def behind (effect : Effect ω α) : Effect (Cached ω) α :=
  effect.within Cached.backing fun world backing => { world with backing }

/-- The tablets of a table as the catalog has them now, or none if there is no such table. -/
def current? (c : Catalog ω) (id : TableId) : Effect ω (Option (List Tablet)) := do
  try
    let tablets ← c.tablets id
    pure (some tablets)
  catch
    | .refused (.tableNotExist _) => pure none
    | f => throw f

/-- The tablets of a table: the known ones, or else the current ones, which are then known. A table
that is not there has no tablets, and that is not remembered. -/
def tablets (c : Catalog ω) (id : TableId) : Effect (Cached ω) (List Tablet) := do
  if !id.isScalar then throw .unlike
  match (← Effect.world).known.find? id with
  | some (tablets, known) =>
    Effect.setWorld { (← Effect.world) with known }
    return tablets
  | none =>
    match ← behind (current? c id) with
    | some tablets =>
      Effect.change fun world => do return { world with known := ← world.known.insert id tablets }
      return tablets
    | none => return []

/-- The note on ranges that are not located. -/
def unresolvedNote (id : TableId) (unresolved all : Nat) : Note :=
  ⟨.debug, .locator, toString unresolved ++ " of " ++ toString all ++ " ranges of table " ++
    id.shown ++ " could not be located"⟩

/-- The locator that asks a catalog and remembers the tablets. -/
def cached (c : Catalog ω) : Locator (Cached ω) where
  tableId name := behind (c.tableId name)
  resolve id ranges := do
    let located ← Effect.ofResult (Located.ofTablets (← tablets c id) ranges)
    if !located.isComplete then
      Effect.note (unresolvedNote id located.unresolved.length ranges.length)
    return located
  invalidate id := do
    if !id.isScalar then throw .unlike
    let world ← Effect.world
    Effect.setWorld { world with known := world.known.erase id }
  tableExists id := behind (c.tableExists id)
  tableState id := behind (c.tableState id)

end Locator

end ScanPlanner
