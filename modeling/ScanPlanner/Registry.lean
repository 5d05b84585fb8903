import ScanPlanner.Catalog

/-!
# Registry

Tables kept in memory: names, and for each id the state and the tablets of the table. A table begins
as a chain of tablets, made from its split points; after that its tablets can be moved, removed or
put in, and it can change its state, be renamed or be deleted, as the tables of a cluster do.

Each operation gives the registry that it leads to, and one that fails gives none. Carrying out a
change that fails leaves the registry as it was, except for three requests that are ill-formed
(`afterFailure`).
-/

namespace ScanPlanner

/-- What is known about one table. -/
structure Table where
  state : TableState
  /-- The tablets by their extents, in the order in which the extents came. -/
  tablets : Ledger Extent Tablet
deriving DecidableEq

namespace Table

/-- The tablet with an extent, if the table has it and the extent can be looked up. -/
def tablet (t : Table) (e : Extent) : Result Tablet :=
  if !e.isKey then .error .unlike
  else match t.tablets.get? e with
    | some tablet => .ok tablet
    | none => .error (.missing e.quoted)

/-- The tablet with an extent, hosted at another place; where it was before becomes its last place.
-/
def moved (e : Extent) (t : Tablet) (location : Option Address) : Tablet :=
  ⟨e, location, t.location <|> t.lastLocation⟩

/-- The table in another state. An offline table has no tablet hosted. -/
def inState (t : Table) : TableState → Table
  | .online => { t with state := .online }
  | .offline => ⟨.offline, t.tablets.map fun (e, tablet) => (e, moved e tablet none)⟩

/-- The tablets in ascending order. -/
def sorted (t : Table) : Result (List Tablet) := do
  return (← Extent.sortOn Prod.fst t.tablets).map Prod.snd

end Table

/-- The places given for the tablets of a new table. -/
inductive Places where
  /-- No places: the tablets are hosted nowhere. -/
  | nowhere
  | listed (places : List (Option Address))
  /-- So many places that have names, and so no order. -/
  | named (count : Nat)
  /-- A value that holds no places. -/
  | malformed
deriving DecidableEq

namespace Places

/-- Reads places. -/
def ofJson : Json → Places
  | .null => .nowhere
  | .object members => .named members.length
  | v => match v.items with
    | .ok items => .listed (items.map Json.given?)
    | .error _ => .malformed

/-- One place for each of so many tablets. A place that has a name is not found by its number. -/
def forTablets (count : Nat) : Places → Result (List (Option Address))
  | .nowhere => .ok (List.replicate count none)
  | .listed places =>
    if places.length = count then .ok places
    else .error (.invalid (.locationCount count places.length))
  | .named present =>
    if present = count then .error (.missing "0")
    else .error (.invalid (.locationCount count present))
  | .malformed => .error .unlike

end Places

/-- Tables by name and id. -/
structure Registry where
  names : Ledger TableName TableId
  tables : Ledger TableId Table
  /-- The number that the next table gets. -/
  nextId : Nat
deriving DecidableEq

namespace Registry

/-- No tables at all. -/
def empty : Registry := ⟨[], [], 1⟩

/-! ## Questions -/

/-- The id of the table that has a name. -/
def tableId (r : Registry) (name : TableName) : Result TableId :=
  if !name.isScalar then .error .unlike
  else match r.names.get? name with
  | some id => .ok id
  | none => .error (.unknownTable name)

/-- The table with an id. -/
def table (r : Registry) (id : TableId) : Result Table :=
  if !id.isScalar then .error .unlike
  else match r.tables.get? id with
    | some table => .ok table
    | none => .error (.unknownTableId id)

/-- There is a table with the id. -/
def tableExists (r : Registry) (id : TableId) : Result Bool :=
  if !id.isScalar then .error .unlike else .ok (r.tables.get? id).isSome

/-- The state of the table with an id. -/
def tableState (r : Registry) (id : TableId) : Result TableState := do return (← r.table id).state

/-- The tablets of the table with an id, in ascending order. -/
def tablets (r : Registry) (id : TableId) : Result (List Tablet) := do (← r.table id).sorted

/-- The table that has a name, with its id. -/
def named (r : Registry) (name : TableName) : Result (TableId × Table) := do
  let id ← r.tableId name
  return (id, ← r.table id)

/-- The extents of the table that has a name, in ascending order. -/
def extents (r : Registry) (name : TableName) : Result (List Extent) := do
  Extent.sort (← r.named name).2.tablets.keys

/-! ## Changes -/

/-- The pairs of neighbouring bounds; both outer bounds are open. -/
def chainBounds (prev : Option RowKey) :
    List (Option RowKey) → List (Option RowKey × Option RowKey)
  | [] => [(prev, none)]
  | point :: rest => (prev, point) :: chainBounds point rest

/-- The points are equal, or they can be compared. -/
def comparablePoints (p q : Option RowKey) : Bool :=
  p == q || match p, q with
    | some k, some l => (k.before? l).isSome
    | _, _ => false

/-- Sorting leaves the points where they are: each comes before the next one. What is no number has
no place among numbers, and stays where it is. -/
def inPlace : List (Option RowKey) → Bool
  | some p :: some q :: rest => (decide (p < q) || !p.alike q) && inPlace (some q :: rest)
  | _ :: _ :: _ => false
  | _ => true

/-- The points are distinct, and sorting leaves them where they are. -/
def ascending (points : List (Option RowKey)) : Bool :=
  decide (points.Pairwise (· ≠ ·)) && inPlace points

/-- The tablets of a new table, hosted at the given places. -/
def chain (id : TableId) (points : List (Option RowKey)) (locations : List (Option Address)) :
    Result (Ledger Extent Tablet) :=
  ((chainBounds none points).zip locations).foldlM (fun tablets ((prev, last), location) => do
    let extent ← Extent.make id prev last
    return tablets.put extent ⟨extent, location, location⟩) []

/-- Puts a new table in. It has one tablet more than split points, each hosted at the place given
for it, if places are given. A split point that is none divides nothing: it stands alone, and the
two tablets beside it have the same extent, so only the last one of them stays. What is no number
can only stand alone, too: beside another point it passes as one in order, but no tablet lies
between the two. -/
def create (r : Registry) (name : TableName) (points : List (Option RowKey))
    (places : Places) (state : TableState) : Result (TableId × Registry) := do
  if !name.isScalar then throw .unlike
  if (r.names.get? name).isSome then throw (.invalid (.tableTaken name.shown))
  if !points.all (·.all RowKey.isScalar) then throw .unlike
  if !points.all (fun p => points.all (comparablePoints p)) then throw .unlike
  if !ascending points then throw (.invalid (.splitPoints points))
  let locations ← places.forTablets (points.length + 1)
  let id : TableId := .text (toString r.nextId)
  let tablets ← chain id points locations
  return (id, ⟨r.names.put name id, r.tables.put id ⟨state, tablets⟩, r.nextId + 1⟩)

/-- Changes the table that has a name. -/
def update (r : Registry) (name : TableName) (f : Table → Result Table) : Result Registry := do
  let (id, table) ← r.named name
  return { r with tables := r.tables.put id (← f table) }

/-- Moves a tablet; without a new place it is hosted nowhere. -/
def setLocation (r : Registry) (name : TableName) (e : Extent) (location : Option Address) :
    Result Registry :=
  r.update name fun t => do
    return { t with tablets := t.tablets.put e (Table.moved e (← t.tablet e) location) }

/-- Takes a table online or offline. -/
def setState (r : Registry) (name : TableName) (state : TableState) : Result Registry :=
  r.update name fun t => .ok (t.inState state)

/-- Removes a tablet, which leaves a hole. -/
def remove (r : Registry) (name : TableName) (e : Extent) : Result Registry :=
  r.update name fun t => do
    let _ ← t.tablet e
    return { t with tablets := t.tablets.erase e }

/-- Puts a tablet in, in the place of one with the same extent, if there is one. -/
def put (r : Registry) (name : TableName) (tablet : Tablet) : Result Registry :=
  r.update name fun t =>
    if !tablet.extent.isKey then .error .unlike
    else .ok { t with tablets := t.tablets.put tablet.extent tablet }

/-- Gives a table another name, also one that another table has: that table loses its name. -/
def rename (r : Registry) (name newName : TableName) : Result Registry := do
  let id ← r.tableId name
  if !newName.isScalar then throw .unlike
  return { r with names := (r.names.erase name).put newName id }

/-- Deletes a table. -/
def delete (r : Registry) (name : TableName) : Result Registry :=
  if !name.isScalar then .error .unlike
  else match r.names.get? name with
    | some id => .ok { r with names := r.names.erase name, tables := r.tables.erase id }
    | none => .error (.missing name.quoted)

/-! ## Changes as values -/

/-- One of a table's extents, given as such or by its place in ascending order, where negative
places count from the end. -/
inductive ExtentRef where
  | given (extent : Extent)
  | index (place : Int)

/-- The place in a list of the given length, if there is one. -/
def placeOf? (place : Int) (length : Nat) : Option Nat :=
  let place := if place < 0 then place + length else place
  if place < 0 then none else some place.toNat

/-- The extent that is meant. -/
def extent (r : Registry) (name : TableName) : ExtentRef → Result Extent
  | .given e => .ok e
  | .index place => do
    let extents ← r.extents name
    match (placeOf? place extents.length).bind fun n => extents[n]? with
    | some e => return e
    | none => throw .noIndex

/-- A change of the registry. -/
inductive Change where
  | create (name : TableName) (points : List (Option RowKey)) (places : Places)
      (state : TableState)
  | setLocation (name : TableName) (extent : ExtentRef) (location : Option Address)
  | setState (name : TableName) (state : TableState)
  | remove (name : TableName) (extent : ExtentRef)
  | put (name : TableName) (tablet : Tablet)
  | rename (name newName : TableName)
  | delete (name : TableName)

/-- The registry that a change leads to. -/
def apply (r : Registry) : Change → Result Registry
  | .create name points places state => do return (← r.create name points places state).2
  | .setLocation name extent location => do
    r.setLocation name (← r.extent name extent) location
  | .setState name state => r.setState name state
  | .remove name extent => do r.remove name (← r.extent name extent)
  | .put name tablet => r.put name tablet
  | .rename name newName => r.rename name newName
  | .delete name => r.delete name

/-- The registry after a change that failed. A table whose places turn out to have names, or whose
split points turn out not to be in order, has used up its id by then, and a table whose new name
cannot be looked up has lost its name. -/
def afterFailure (r : Registry) : Change → Registry
  | .create name points places state =>
    match r.create name points places state with
    | .error (.missing _) => { r with nextId := r.nextId + 1 }
    | .error (.invalid (.extentOrder _ _)) => { r with nextId := r.nextId + 1 }
    | _ => r
  | .rename name _ =>
    match r.tableId name with
    | .ok _ => { r with names := r.names.erase name }
    | .error _ => r
  | _ => r

/-- Carries a change out. -/
def carryOut (change : Change) : Effect Registry Unit := do
  let r ← Effect.world
  match r.apply change with
  | .ok after => Effect.setWorld after
  | .error f =>
    Effect.setWorld (r.afterFailure change)
    throw f

/-- Reads a catalog out of the registry. -/
def catalog : Catalog Registry where
  tableId name := Effect.ask (·.tableId name)
  tableExists id := Effect.ask (·.tableExists id)
  tableState id := Effect.ask (·.tableState id)
  tablets id := Effect.ask (·.tablets id)

end Registry

end ScanPlanner
