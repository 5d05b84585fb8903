import ScanPlanner.Proofs.Ledger
import ScanPlanner.Proofs.Outcome
import ScanPlanner.Proofs.Spread
import ScanPlanner.Registry

/-!
# Stores and what is remembered of them

A catalog whose answers are read out of its world, which no question changes, is that of a `Store`;
the registry is one. In front of it stands the cache of a locator. Once a table is forgotten, its
tablets are those that the store has now, whatever the cache held before
(`Store.outcome_tablets`).
-/

namespace ScanPlanner

/-! ## Caches -/

namespace Lru

variable {κ ν : Type} [BEq κ]

/-- No key has two entries. -/
def WellFormed (c : Lru κ ν) : Prop := Ledger.Distinct c.entries

theorem wellFormed_empty (capacity : Int) : (empty capacity : Lru κ ν).WellFormed :=
  Ledger.distinct_nil

theorem wellFormed_erase {c : Lru κ ν} (h : c.WellFormed) (key : κ) : (c.erase key).WellFormed :=
  Ledger.Distinct.sublist h (Ledger.erase_sublist c.entries key)

/-- What is found has been there, and nothing comes in by it. -/
theorem mem_of_find? {c c' : Lru κ ν} {key : κ} {value : ν}
    (h : c.find? key = some (value, c')) :
    (∃ k, (k == key) = true ∧ (k, value) ∈ c.entries) ∧
      ∀ entry ∈ c'.entries, entry = (key, value) ∨ entry ∈ c.entries := by
  obtain ⟨v, found, e⟩ := Option.map_eq_some_iff.mp h
  cases e
  refine ⟨Ledger.mem_of_get? found, fun entry he => ?_⟩
  exact (List.mem_cons.mp he).imp_right fun he => (Ledger.erase_sublist c.entries key).subset he

/-- Putting an entry in brings in that entry and no other one. -/
theorem mem_of_insert {c c' : Lru κ ν} {key : κ} {value : ν} (h : c.insert key value = .ok c') :
    ∀ entry ∈ c'.entries, entry = (key, value) ∨ entry ∈ c.entries := by
  unfold insert at h
  split at h
  · cases h
  · cases h
    intro entry he
    refine (List.mem_cons.mp he).imp_right fun he => ?_
    exact (Ledger.erase_sublist c.entries key).subset (List.mem_of_mem_take he)

variable [EquivBEq κ]

/-- To find a key only moves its entry to the front. -/
theorem wellFormed_find? {c c' : Lru κ ν} (h : c.WellFormed) {key : κ} {value : ν}
    (hf : c.find? key = some (value, c')) : c'.WellFormed ∧ c'.capacity = c.capacity := by
  obtain ⟨v, -, e⟩ := Option.map_eq_some_iff.mp hf
  cases e
  -- the entry goes to the front, where it was is none of its key left
  exact ⟨Ledger.distinct_cons.mpr ⟨fun e he => Ledger.not_beq_of_mem_erase h he,
    Ledger.Distinct.sublist h (Ledger.erase_sublist c.entries key)⟩, rfl⟩

/-- To put a key in replaces the entry that it had, so it does not have two. Nor are there more
entries than there is room for. -/
theorem wellFormed_insert {c c' : Lru κ ν} (h : c.WellFormed) {key : κ} {value : ν}
    (hi : c.insert key value = .ok c') : c'.WellFormed ∧ c'.capacity = c.capacity := by
  unfold insert at hi
  split at hi
  · cases hi
  · cases hi
    refine ⟨Ledger.distinct_cons.mpr ⟨fun e he => ?_, ?_⟩, rfl⟩
    · exact Ledger.not_beq_of_mem_erase h (List.mem_of_mem_take he)
    · exact Ledger.Distinct.sublist h
        ((List.take_sublist _ _).trans (Ledger.erase_sublist c.entries key))

/-- A key that has been forgotten is not found. -/
theorem find?_erase_self {c : Lru κ ν} (h : c.WellFormed) (key : κ) :
    (c.erase key).find? key = none := by
  unfold find? erase
  rw [Ledger.get?_erase_self h key]
  rfl

omit [EquivBEq κ] in
theorem insert_of_lt {c : Lru κ ν} (h : c.capacity < 1) (key : κ) (value : ν) :
    c.insert key value = .error (.invalid .noRoom) := by
  unfold insert
  rw [if_pos h]

omit [EquivBEq κ] in
/-- A cache with room takes every entry, if need be by dropping another one. -/
theorem exists_insert {c : Lru κ ν} (h : ¬ c.capacity < 1) (key : κ) (value : ν) :
    ∃ c', c.insert key value = .ok c' := by
  unfold insert
  rw [if_neg h]
  exact ⟨_, rfl⟩

variable {c c' : Lru κ ν} {key other : κ} {v : ν}

omit [EquivBEq κ] in
/-- What is found is what the entries have for the key. -/
theorem get?_eq_some_of_find? (h : c.find? key = some (v, c')) :
    Ledger.get? c.entries key = some v := by
  obtain ⟨w, found, e⟩ := Option.map_eq_some_iff.mp h
  cases e
  exact found

/-- Finding a key changes the order of the entries, and nothing about what is found. -/
theorem get?_of_find? (h : c.find? key = some (v, c')) (other : κ) :
    Ledger.get? c'.entries other = Ledger.get? c.entries other := by
  obtain ⟨w, found, e⟩ := Option.map_eq_some_iff.mp h
  cases e
  by_cases same : key == other
  · rw [← Ledger.get?_congr c.entries same, found]
    simp [Ledger.get?, same]
  · rw [Bool.not_eq_true] at same
    rw [← Ledger.get?_erase_of_ne c.entries same]
    simp [Ledger.get?, same]

omit [EquivBEq κ] in
/-- What was put in under a key is what the entries have for it, and for any key equal to it. -/
theorem get?_of_insert_self (h : c.insert key v = .ok c') (same : (key == other) = true) :
    Ledger.get? c'.entries other = some v := by
  unfold insert at h
  split at h
  · cases h
  · cases h
    simp [Ledger.get?, same]

/-- Putting a key in may drop another one, but does not change what is found of those that stay. -/
theorem get?_of_insert_of_ne (h : c.insert key v = .ok c') (ne : (key == other) = false) :
    Ledger.get? c'.entries other = Ledger.get? c.entries other ∨
      Ledger.get? c'.entries other = none := by
  unfold insert at h
  split at h
  · cases h
  · cases h
    rw [← Ledger.get?_erase_of_ne c.entries ne]
    simpa [Ledger.get?, ne] using Ledger.get?_take (Ledger.erase c.entries key) _ other

end Lru

/-! ## What a locator remembers -/

namespace Locator

variable {ω : Type} {id : TableId}

/-- Remembers the tablets of a table; a table that is not there has none. -/
def keep (id : TableId) : Option (List Tablet) → Effect (Cached ω) (List Tablet)
  | some tablets => do
    Effect.change fun world => do return { world with known := ← world.known.insert id tablets }
    return tablets
  | none => return []

/-- The tablets of a table are the ones that are remembered, or else those that the catalog has.
Finding them in the cache moves them to the front. -/
theorem outcome_tablets (c : Catalog ω) (scalar : id.isScalar = true) (s : Scene (Cached ω)) :
    outcome (tablets c id) s = match s.world.known.find? id with
      | some (tablets, known) => (.ok tablets, ⟨⟨s.world.backing, known⟩, s.notes⟩)
      | none => outcome (behind (current? c id) >>= keep id) s := by
  unfold tablets
  rw [scalar]
  simp only [Bool.not_true, Bool.false_eq_true, if_false, outcome_bind, Effect.outcome_world]
  cases s.world.known.find? id with
  | some found => rfl
  | none =>
    simp only [outcome_bind]
    rcases outcome (behind (current? c id)) s with ⟨f | found, s'⟩
    · rfl
    · cases found <;> rfl

/-- To remember tablets fails if and only if the cache has no room for them. -/
theorem outcome_keep (id : TableId) (tablets : List Tablet) (s : Scene (Cached ω)) :
    outcome (keep id (some tablets)) s = match s.world.known.insert id tablets with
      | .ok known => (.ok tablets, ⟨⟨s.world.backing, known⟩, s.notes⟩)
      | .error f => (.error f, s) := by
  unfold keep Effect.change
  simp only [outcome_bind, Effect.outcome_world, Effect.outcome_ofResult]
  cases s.world.known.insert id tablets <;> rfl

end Locator

/-! ## Stores -/

/-- What can be read about tables in a world `ω`. -/
structure Store (ω : Type) where
  tableId : ω → TableName → Result TableId
  tableExists : ω → TableId → Result Bool
  tableState : ω → TableId → Result TableState
  tablets : ω → TableId → Result (List Tablet)

/-- The registry, as it is read. -/
def Registry.store : Store Registry where
  tableId := Registry.tableId
  tableExists := Registry.tableExists
  tableState := Registry.tableState
  tablets := Registry.tablets

namespace Store

variable {ω : Type} (s : Store ω)

/-- The catalog that reads its answers out of the world. -/
def catalog : Catalog ω where
  tableId name := Effect.ask (s.tableId · name)
  tableExists id := Effect.ask (s.tableExists · id)
  tableState id := Effect.ask (s.tableState · id)
  tablets id := Effect.ask (s.tablets · id)

/-- The tablets of a table, or none if there is no such table. -/
def tablets? (w : ω) (id : TableId) : Result (Option (List Tablet)) :=
  match s.tablets w id with
  | .ok tablets => .ok (some tablets)
  | .error (.refused (.tableNotExist _)) => .ok none
  | .error f => .error f

/-- The tablets of a table; one that is not there has none. -/
def tabletsNow (w : ω) (id : TableId) : Result (List Tablet) := do
  return (← s.tablets? w id).getD []

/-- The tablets of a table that a cache of some capacity has to hold. -/
def tabletsVia (capacity : Int) (w : ω) (id : TableId) : Result (List Tablet) := do
  match ← s.tablets? w id with
  | none => return []
  | some tablets => if capacity < 1 then throw (.invalid .noRoom) else return tablets

variable {s}

/-- The tablets of a table that is there are those that it has now. -/
theorem tabletsNow_of_tablets {w : ω} {id : TableId} {tablets : List Tablet}
    (h : s.tablets w id = .ok tablets) : s.tabletsNow w id = .ok tablets := by
  unfold tabletsNow tablets?
  rw [h]
  rfl

/-- What could be held by the cache is what the store has, so a cache never changes an answer. It
may only keep one from being given, if it has no room. -/
theorem tabletsNow_of_tabletsVia {capacity : Int} {w : ω} {id : TableId} {tablets : List Tablet}
    (h : s.tabletsVia capacity w id = .ok tablets) : s.tabletsNow w id = .ok tablets := by
  unfold tabletsVia at h
  unfold tabletsNow
  obtain ⟨found, hfound, h⟩ := Result.bind_eq_ok.mp h
  rw [hfound]
  cases found with
  | none => exact h
  | some found =>
    dsimp only at h
    split at h
    · cases h
    · exact h

/-- With room for one table at least, what the cache can hold is what the store has. -/
theorem tabletsVia_of_le {capacity : Int} (h : 1 ≤ capacity) (w : ω) (id : TableId) :
    s.tabletsVia capacity w id = s.tabletsNow w id := by
  unfold tabletsVia tabletsNow
  have room : ¬ capacity < 1 := by omega
  cases s.tablets? w id with
  | error f => rfl
  | ok found =>
    cases found with
    | none => rfl
    | some tablets =>
      rw [Result.bind_ok]
      exact if_neg room

variable (s)

/-! ## The catalog of a store -/

/-- What a registry is asked for is read out of it as a store. -/
theorem catalog_registry : Registry.store.catalog = Registry.catalog := rfl

/-- The tablets are asked for in the store as it is; that there is no such table is an answer and no
failure. -/
@[simp] theorem outcome_current? (id : TableId) (scene : Scene ω) :
    outcome (Locator.current? s.catalog id) scene = (s.tablets? scene.world id, scene) := by
  unfold Locator.current? tablets?
  have asked : outcome (s.catalog.tablets id) scene = (s.tablets scene.world id, scene) :=
    Effect.outcome_ask _ _
  rw [outcome_tryCatch, outcome_bind, asked]
  cases s.tablets scene.world id with
  | ok tablets => rfl
  | error f =>
    cases f with
    | refused why => cases why <;> rfl
    | _ => rfl

/-- The tablets of a table that the cache has forgotten are those that the store has now. The cache
stays as it is, or they are put into it. -/
theorem exists_tablets_of_forgotten (backing : ω) {known : Lru TableId (List Tablet)}
    (notes : List Note) {id : TableId} (hid : id.isScalar = true) (hf : known.find? id = none) :
    ∃ known', outcome (Locator.tablets s.catalog id) ⟨⟨backing, known⟩, notes⟩ =
        (s.tabletsVia known.capacity backing id, ⟨⟨backing, known'⟩, notes⟩) ∧
      (known' = known ∨ ∃ tablets, s.tabletsVia known.capacity backing id = .ok tablets ∧
        known.insert id tablets = .ok known') := by
  have current : outcome (Locator.behind (Locator.current? s.catalog id))
      ⟨⟨backing, known⟩, notes⟩ = (s.tablets? backing id, ⟨⟨backing, known⟩, notes⟩) := by
    unfold Locator.behind
    rw [Effect.outcome_within, outcome_current?]
  rw [Locator.outcome_tablets _ hid]
  unfold tabletsVia
  simp only [hf, outcome_bind, current]
  cases s.tablets? backing id with
  | error f => exact ⟨known, rfl, .inl rfl⟩
  | ok found =>
    cases found with
    | none =>
      -- a table that is not there is not remembered
      exact ⟨known, rfl, .inl rfl⟩
    | some tablets =>
      simp only [Locator.outcome_keep, Result.bind_ok]
      by_cases room : known.capacity < 1
      · rw [Lru.insert_of_lt room, if_pos room]
        exact ⟨known, rfl, .inl rfl⟩
      · obtain ⟨known', hi⟩ := Lru.exists_insert room id tablets
        rw [hi, if_neg room]
        exact ⟨known', rfl, .inr ⟨tablets, rfl, hi⟩⟩

/-- The same where only this is kept of the cache, that it is in order and of the same size. The
table is not in the cache, so the store is asked. -/
theorem outcome_tablets (backing : ω) {known : Lru TableId (List Tablet)} (notes : List Note)
    {id : TableId} (hid : id.isScalar = true) (hf : known.find? id = none)
    (hw : known.WellFormed) :
    ∃ known', outcome (Locator.tablets s.catalog id) ⟨⟨backing, known⟩, notes⟩ =
        (s.tabletsVia known.capacity backing id, ⟨⟨backing, known'⟩, notes⟩) ∧
      known'.WellFormed ∧ known'.capacity = known.capacity := by
  obtain ⟨known', run, rfl | ⟨tablets, -, hi⟩⟩ :=
    s.exists_tablets_of_forgotten backing notes hid hf
  · exact ⟨known', run, hw, rfl⟩
  · exact ⟨known', run, Lru.wellFormed_insert hw hi⟩

end Store

/-! ## What a registry answers -/

/-- The tablets of a table are not given only if the order of their extents cannot be told. -/
theorem Table.eq_unlike_of_sorted {t : Table} {f : Failure} (h : t.sorted = .error f) :
    f = .unlike := by
  rcases Result.bind_eq_error.mp h with unsorted | ⟨_, -, h⟩
  · exact Sorting.eq_unlike_of_sort? unsorted
  · cases h

namespace Registry

variable {r : Registry} {id : TableId} {t : Table}

/-- A table is given if it is filed under its id. -/
theorem table_of_get? (scalar : id.isScalar = true) (h : r.tables.get? id = some t) :
    r.table id = .ok t := by
  unfold table
  rw [scalar, h]
  rfl

/-- An id under which nothing is filed is unknown. -/
theorem table_of_none (scalar : id.isScalar = true) (h : r.tables.get? id = none) :
    r.table id = .error (.unknownTableId id) := by
  unfold table
  rw [scalar, h]
  rfl

/-- The other way round, a table that is given is filed under its id, and the id is one that a
dictionary takes as a key. -/
theorem get?_of_table (h : r.table id = .ok t) :
    id.isScalar = true ∧ r.tables.get? id = some t := by
  unfold table at h
  split at h
  · cases h
  · next scalar =>
    split at h
    · next found =>
      cases h
      exact ⟨by simpa using scalar, found⟩
    · cases h

/-- A table that is found by its name has been found by the id that the name stands for. -/
theorem named_eq_ok {name : TableName} (h : r.named name = .ok (id, t)) :
    r.tableId name = .ok id ∧ r.table id = .ok t := by
  obtain ⟨id', hid, h⟩ := Result.bind_eq_ok.mp h
  obtain ⟨t', ht, h⟩ := Result.bind_eq_ok.mp h
  cases h
  exact ⟨hid, ht⟩

theorem tableState_of_table (h : r.table id = .ok t) : r.tableState id = .ok t.state := by
  unfold tableState
  rw [h]
  rfl

theorem tablets_of_table (h : r.table id = .ok t) : r.tablets id = t.sorted := by
  unfold tablets
  rw [h, Result.bind_ok]

end Registry

/-! ## A table that is split once -/

/-- The rows of the table up to and including `m`. -/
def Extent.lowerHalf : Extent := ⟨.text "1", none, some (.text "m"), trivial⟩

/-- The rows of the table behind `m`. -/
def Extent.upperHalf : Extent := ⟨.text "1", some (.text "m"), none, trivial⟩

/-- A range with rows of both halves. -/
def KeyRange.acrossHalves : KeyRange :=
  ⟨some ⟨.text "c", .bool true⟩, some ⟨.text "x", .bool true⟩, by decide⟩

namespace Registry

/-- A registry with one table, whose two tablets are hosted at the given places. -/
def halves (state : TableState) (lower upper : Option Address) : Registry where
  names := [(.text "t", .text "1")]
  tables := [(.text "1", ⟨state, [(.lowerHalf, ⟨.lowerHalf, lower, none⟩),
    (.upperHalf, ⟨.upperHalf, upper, none⟩)]⟩)]
  nextId := 2

/-- The table is online, and its upper tablet is not hosted yet. -/
def halfHosted : Registry := halves .online (some (.text "a:1")) none

/-- The table is offline, and its upper tablet is still hosted. -/
def halfReleased : Registry := halves .offline none (some (.text "b:1"))

/-- Moves the upper one of the two tablets. -/
def moveUpperHalf (location : Option Address) : Effect Registry Unit :=
  carryOut (.setLocation (.text "t") (.index (-1)) location)

/-- The collaborators in front of a registry, where each host is known by its own name. -/
def collaborators : Collaborators (Cached Registry) where
  backend := .ofCatalog .inMemory catalog
  canonical host := return .text host
  numbers _ := 7

theorem backend_collaborators :
    collaborators.backend = .ofCatalog .inMemory store.catalog := by
  rw [Store.catalog_registry]
  rfl

/-- A session with a registry, and a cache that still holds what was true of the table earlier: that
it had no tablets. -/
def staleSession (r : Registry) : Session (Cached Registry) := .start ⟨r, ⟨1, [(.text "1", [])]⟩⟩

/-- A cache with one entry is in order. -/
theorem wellFormed_staleSession (r : Registry) : (staleSession r).world.known.WellFormed :=
  List.pairwise_singleton _ _

end Registry

end ScanPlanner
