import ScanPlanner.Proofs.Attempt

/-!
# How recent the tablets of a cache are

A locator that remembers tablets is asked about any number of tables while its store changes
(`Move`). What it holds of a table has been read out of the store after the table was forgotten for
the last time, and nothing that is done about other tables changes that, except that it may be
dropped to make room (`Store.serves_next`). So ranges are located in tablets that the store had at
some moment since then, and in those that it has now if they have not been asked for since
(`Store.resolved_recent`).
-/

namespace ScanPlanner

variable {ω : Type}

/-- What the cache holds of a table. Of an id that cannot be looked up it holds nothing. -/
def Cached.held (x : Cached ω) (id : TableId) : Option (List Tablet) :=
  if id.isScalar then Ledger.get? x.known.entries id else none

theorem Cached.held_of_isScalar {x : Cached ω} {id : TableId} (h : id.isScalar = true) :
    x.held id = Ledger.get? x.known.entries id := by
  unfold held
  rw [if_pos h]

/-- Of an id that cannot be looked up the cache holds nothing. -/
theorem Cached.held_of_not_isScalar {x : Cached ω} {id : TableId} (h : id.isScalar = false) :
    x.held id = none := by
  unfold held
  rw [h]
  rfl

/-- The cache is in order, and has room for a table. A cache without room would forget what it was
just told. -/
structure Cached.Sound (x : Cached ω) : Prop where
  known : x.known.WellFormed
  room : 1 ≤ x.known.capacity

/-! ## Resolving -/

namespace Store

variable (store : Store ω)

/-- Equal ids are ids of the same table, and an id that cannot be looked up is none. Ids are values
of which equal ones may be written differently. -/
structure Keyed : Prop where
  congr : ∀ {id other}, (id == other) = true → ∀ w, store.tablets? w id = store.tablets? w other
  unlike : ∀ {id}, id.isScalar = false → ∀ w, store.tablets? w id = .error .unlike

/-- The ranges that are located in the tablets that the store has of a table; a table that is not
there has none. -/
def answer (w : ω) (id : TableId) (ranges : List KeyRange) : Result Located := do
  Located.ofTablets (← store.tabletsNow w id) ranges

/-- The answer of the locator that remembers tablets. -/
def resolved (x : Cached ω) (id : TableId) (ranges : List KeyRange) : Result Located :=
  (outcome ((Locator.cached store.catalog).resolve id ranges) ⟨x, []⟩).1

/-- The tablets of a table as they are seen through the cache: those that it holds, and those of the
store when it holds none. -/
def seen (x : Cached ω) (id : TableId) : Result (List Tablet) :=
  match x.held id with
  | some tablets => .ok tablets
  | none => store.tabletsNow x.backing id

variable {store}

/-- What is held is seen, whatever the store has by now. -/
theorem seen_of_held {x : Cached ω} {id : TableId} {tablets : List Tablet}
    (h : x.held id = some tablets) : store.seen x id = .ok tablets := by
  unfold seen
  rw [h]

/-- Where nothing is held the store itself is seen. -/
theorem seen_of_none {x : Cached ω} {id : TableId} (h : x.held id = none) :
    store.seen x id = store.tabletsNow x.backing id := by
  unfold seen
  rw [h]

/-- From `x` to `x'` what is held of a table stays as it is, or is dropped, or the table is the one
that was asked for and its tablets have been read out of the store. -/
inductive Serves (store : Store ω) (id : TableId) (asked : Prop) (x x' : Cached ω) : Prop
  | kept (h : x'.held id = x.held id)
  | dropped (h : x'.held id = none)
  | read (h : asked) {tablets : List Tablet} (held : x'.held id = some tablets)
      (now : store.tabletsNow x'.backing id = .ok tablets)

/-- Remembering tablets that have just been read: what is held of their table is what the store has,
and other tables are held as before or dropped. -/
theorem serves_of_insert (keyed : store.Keyed) {x : Cached ω} {id : TableId}
    {tablets : List Tablet} {known : Lru TableId (List Tablet)}
    (hi : x.known.insert id tablets = .ok known)
    (now : store.tabletsNow x.backing id = .ok tablets) (other : TableId) :
    store.Serves other ((id == other) = true) x ⟨x.backing, known⟩ := by
  cases scalar : other.isScalar with
  | false => exact .dropped (Cached.held_of_not_isScalar scalar)
  | true =>
    have before := Cached.held_of_isScalar (x := x) scalar
    have held := Cached.held_of_isScalar (x := ⟨x.backing, known⟩) scalar
    -- the tablets that were read are those of the table now; all others are kept or pushed out
    by_cases same : (id == other) = true
    · refine .read same (held.trans (Lru.get?_of_insert_self hi same)) ?_
      unfold tabletsNow at now ⊢
      rw [← keyed.congr same]
      exact now
    · rw [Bool.not_eq_true] at same
      rcases Lru.get?_of_insert_of_ne hi same with kept | dropped
      · exact .kept (held.trans (kept.trans before.symm))
      · exact .dropped (held.trans dropped)

/-- The tablets that a locator has of a table are those that are seen through its cache, and reading
them out of the store does nothing else to what the cache holds. -/
theorem exists_tablets (keyed : store.Keyed) {x : Cached ω} (sound : x.Sound) (id : TableId)
    (notes : List Note) :
    ∃ known, outcome (Locator.tablets store.catalog id) ⟨x, notes⟩ =
        (store.seen x id, ⟨⟨x.backing, known⟩, notes⟩) ∧
      Cached.Sound ⟨x.backing, known⟩ ∧
      ∀ other, store.Serves other ((id == other) = true) x ⟨x.backing, known⟩ := by
  cases scalar : id.isScalar with
  | false =>
    refine ⟨x.known, ?_, sound, fun _ => .kept rfl⟩
    rw [seen_of_none (Cached.held_of_not_isScalar scalar)]
    unfold tabletsNow Locator.tablets
    rw [scalar, keyed.unlike scalar]
    rfl
  | true =>
    have held := Cached.held_of_isScalar (x := x) scalar
    -- what is held is found, and moves to the front; what is not held is read out of the store, and
    -- held from then on if the table is there
    cases hf : x.known.find? id with
    | some found =>
      obtain ⟨tablets, known⟩ := found
      obtain ⟨wellFormed, capacity⟩ := Lru.wellFormed_find? sound.known hf
      have now : x.held id = some tablets := held.trans (Lru.get?_eq_some_of_find? hf)
      refine ⟨known, ?_, ⟨wellFormed, capacity ▸ sound.room⟩, fun other => .kept ?_⟩
      · rw [Locator.outcome_tablets _ scalar, seen_of_held now]
        simp only [hf]
      · unfold Cached.held
        rw [Lru.get?_of_find? hf]
    | none =>
      have nothing : x.held id = none := held.trans (Option.map_eq_none_iff.mp hf)
      obtain ⟨known, run, kept⟩ :=
        store.exists_tablets_of_forgotten x.backing notes scalar hf
      rw [tabletsVia_of_le sound.room] at run kept
      rw [seen_of_none nothing]
      rcases kept with rfl | ⟨tablets, now, hi⟩
      · exact ⟨_, run, sound, fun _ => .kept rfl⟩
      · obtain ⟨wellFormed, capacity⟩ := Lru.wellFormed_insert sound.known hi
        refine ⟨known, run, ⟨wellFormed, capacity ▸ sound.room⟩, fun other => ?_⟩
        exact serves_of_insert keyed hi now other

/-- Resolving ranges locates them in the tablets that are seen, and does to the cache what reading
these does. Notes on ranges that are not located change neither. -/
theorem exists_resolve (keyed : store.Keyed) {x : Cached ω} (sound : x.Sound) (id : TableId)
    (ranges : List KeyRange) (notes : List Note) :
    ∃ known notes', outcome ((Locator.cached store.catalog).resolve id ranges) ⟨x, notes⟩ =
        (store.seen x id >>= (Located.ofTablets · ranges), ⟨⟨x.backing, known⟩, notes'⟩) ∧
      Cached.Sound ⟨x.backing, known⟩ ∧
      ∀ other, store.Serves other ((id == other) = true) x ⟨x.backing, known⟩ := by
  obtain ⟨known, run, sound', serves⟩ := exists_tablets keyed sound id notes
  simp only [Locator.cached, outcome_bind]
  rw [run]
  cases store.seen x id with
  | error f => exact ⟨known, notes, rfl, sound', serves⟩
  | ok tablets =>
    simp only [Effect.outcome_ofResult, Result.bind_ok]
    cases Located.ofTablets tablets ranges with
    | error f => exact ⟨known, notes, rfl, sound', serves⟩
    | ok l =>
      -- a note on ranges that are not located changes neither
      simp only
      cases l.isComplete with
      | true => exact ⟨known, notes, rfl, sound', serves⟩
      | false => exact ⟨known, _, rfl, sound', serves⟩

/-- The answer is what locating gives in the tablets that are seen. -/
theorem resolved_eq (keyed : store.Keyed) {x : Cached ω} (sound : x.Sound) (id : TableId)
    (ranges : List KeyRange) :
    store.resolved x id ranges = store.seen x id >>= (Located.ofTablets · ranges) := by
  obtain ⟨known, notes, run, -⟩ := exists_resolve keyed sound id ranges []
  unfold resolved
  rw [run]

/-- Through a cache that holds nothing of a table the store itself is seen. -/
theorem resolved_of_none (keyed : store.Keyed) {x : Cached ω} (sound : x.Sound) {id : TableId}
    (h : x.held id = none) (ranges : List KeyRange) :
    store.resolved x id ranges = store.answer x.backing id ranges := by
  rw [resolved_eq keyed sound, seen_of_none h]
  rfl

end Store

/-! ## Moves -/

/-- What is done with a store and a locator that remembers tablets. Changes and questions may follow
each other in any order. -/
inductive Move (ω : Type) where
  /-- The store is changed behind the cache. -/
  | change (effect : Effect ω Unit)
  | resolve (id : TableId) (ranges : List KeyRange)
  | invalidate (id : TableId)

namespace Move

/-- The move resolves ranges of the table. -/
def resolves (id : TableId) : Move ω → Bool
  | .resolve asked _ => asked == id
  | _ => false

/-- The move has the table forgotten. -/
def invalidates (id : TableId) : Move ω → Bool
  | .invalidate forgotten => forgotten == id
  | _ => false

/-- The move resolves or invalidates a table other than the given one. -/
def isAside (id : TableId) : Move ω → Bool
  | .change _ => false
  | .resolve asked _ => !(asked == id)
  | .invalidate forgotten => !(forgotten == id)

/-- A move aside does not resolve ranges of the table. -/
theorem resolves_of_isAside {m : Move ω} {id : TableId} (h : m.isAside id = true) :
    m.resolves id = false := by
  cases m with
  | resolve asked ranges => simpa [isAside, resolves] using h
  | _ => rfl

/-- What a move does in the world with the cache. -/
def effect (store : Store ω) : Move ω → Effect (Cached ω) Unit
  | .change effect => Locator.behind effect
  | .resolve id ranges => do let _ ← (Locator.cached store.catalog).resolve id ranges
  | .invalidate id => (Locator.cached store.catalog).invalidate id

end Move

namespace Store

variable (store : Store ω)

/-- The world after a move. -/
def next (x : Cached ω) (m : Move ω) : Cached ω := (outcome (m.effect store) ⟨x, []⟩).2.world

/-- The world after some moves, with a cache that held nothing at first. -/
def after (capacity : Int) (w : ω) (moves : List (Move ω)) : Cached ω :=
  moves.foldl store.next ⟨w, .empty capacity⟩

variable {store}

/-- A change reaches the store and not the cache. -/
theorem next_change (x : Cached ω) (effect : Effect ω Unit) :
    store.next x (.change effect) = ⟨(outcome effect ⟨x.backing, []⟩).2.world, x.known⟩ := by
  unfold next Move.effect Locator.behind
  rw [Effect.outcome_within]

/-- Invalidating a table erases its entry and leaves the store alone. -/
theorem next_invalidate (x : Cached ω) (id : TableId) :
    store.next x (.invalidate id) =
      if id.isScalar then ⟨x.backing, x.known.erase id⟩ else x := by
  unfold next Move.effect
  cases scalar : id.isScalar with
  | false => simp [Locator.cached, scalar]
  | true => simp [Locator.cached, scalar, outcome_bind]

/-- Forgetting a table is all that invalidating it does to what is held. An id that cannot be looked
up fails, and nothing is held of it anyway. -/
theorem held_next_invalidate {x : Cached ω} (sound : x.Sound) (forgotten id : TableId) :
    (store.next x (.invalidate forgotten)).held id =
      if (forgotten == id) = true then none else x.held id := by
  rw [next_invalidate]
  by_cases scalar : forgotten.isScalar = true
  · rw [if_pos scalar]
    unfold Cached.held Lru.erase
    -- an id equal to one that cannot be looked up cannot be looked up either
    by_cases same : (forgotten == id) = true
    · have forgot := Ledger.get?_erase_self sound.known forgotten
      rw [Ledger.get?_congr _ same] at forgot
      rw [forgot, if_pos same, ite_self]
    · rw [Ledger.get?_erase_of_ne _ (Bool.not_eq_true _ ▸ same), if_neg same]
  · rw [if_neg scalar]
    by_cases same : (forgotten == id) = true
    · rw [Bool.not_eq_true, Json.isScalar_eq_of_beq same] at scalar
      rw [if_pos same, Cached.held_of_not_isScalar scalar]
    · rw [if_neg same]

/-- After ranges were resolved the store is as before, and of each table the same is held, or
nothing, or what was read. -/
theorem exists_next_resolve (keyed : store.Keyed) {x : Cached ω} (sound : x.Sound) (id : TableId)
    (ranges : List KeyRange) :
    ∃ known, store.next x (.resolve id ranges) = ⟨x.backing, known⟩ ∧
      Cached.Sound ⟨x.backing, known⟩ ∧
      ∀ other, store.Serves other ((id == other) = true) x ⟨x.backing, known⟩ := by
  obtain ⟨known, notes, run, sound', serves⟩ := exists_resolve keyed sound id ranges []
  refine ⟨known, ?_, sound', serves⟩
  unfold next Move.effect
  rw [outcome_bind, run]
  cases store.seen x id >>= (Located.ofTablets · ranges) <;> rfl

/-- A move leaves the cache in order, whether it succeeds or fails. -/
theorem sound_next (keyed : store.Keyed) {x : Cached ω} (sound : x.Sound) (m : Move ω) :
    (store.next x m).Sound := by
  cases m with
  | change effect =>
    rw [next_change]
    exact ⟨sound.known, sound.room⟩
  | resolve asked ranges =>
    obtain ⟨known, run, sound', -⟩ := exists_next_resolve keyed sound asked ranges
    rwa [run]
  | invalidate forgotten =>
    rw [next_invalidate]
    by_cases scalar : forgotten.isScalar = true
    · rw [if_pos scalar]
      exact ⟨Lru.wellFormed_erase sound.known forgotten, sound.room⟩
    · rwa [if_neg scalar]

/-- A move changes what is held of a table only by dropping it or by reading it for a
resolution. -/
theorem serves_next (keyed : store.Keyed) {x : Cached ω} (sound : x.Sound) (m : Move ω)
    (id : TableId) : store.Serves id (m.resolves id = true) x (store.next x m) := by
  -- only a resolution puts something into the cache
  cases m with
  | change effect =>
    rw [next_change]
    exact .kept rfl
  | resolve asked ranges =>
    obtain ⟨known, run, -, serves⟩ := exists_next_resolve keyed sound asked ranges
    rw [run]
    exact serves id
  | invalidate forgotten =>
    have held : (store.next x (.invalidate forgotten)).held id =
        if (forgotten == id) = true then none else x.held id :=
      held_next_invalidate sound forgotten id
    by_cases same : (forgotten == id) = true
    · exact .dropped (held.trans (if_pos same))
    · exact .kept (held.trans (if_neg same))

/-- Nothing is held of a table that has just been invalidated. -/
theorem held_next_of_invalidates {x : Cached ω} (sound : x.Sound) {m : Move ω} {id : TableId}
    (h : m.invalidates id = true) : (store.next x m).held id = none := by
  cases m with
  | change effect => cases h
  | resolve asked ranges => cases h
  | invalidate forgotten => exact (held_next_invalidate sound forgotten id).trans (if_pos h)

/-- A move aside leaves the store as it is. Only changes write to it; resolving and forgetting do
not. -/
theorem backing_next_of_isAside (keyed : store.Keyed) {x : Cached ω} (sound : x.Sound)
    {m : Move ω} {id : TableId} (aside : m.isAside id = true) :
    (store.next x m).backing = x.backing := by
  cases m with
  | change effect => cases aside
  | resolve asked ranges =>
    obtain ⟨known, run, -⟩ := exists_next_resolve keyed sound asked ranges
    rw [run]
  | invalidate forgotten =>
    rw [next_invalidate]
    by_cases scalar : forgotten.isScalar = true
    · rw [if_pos scalar]
    · rw [if_neg scalar]

/-! ## Runs -/

/-- The world after one move more is the next one after the world before it. -/
theorem after_concat (capacity : Int) (w : ω) (moves : List (Move ω)) (m : Move ω) :
    store.after capacity w (moves ++ [m]) = store.next (store.after capacity w moves) m := by
  unfold after
  rw [List.foldl_append]
  rfl

theorem held_empty (capacity : Int) (w : ω) (id : TableId) :
    (store.after capacity w []).held id = none := by
  unfold Cached.held
  exact ite_self none

section

variable (keyed : store.Keyed) {capacity : Int} (room : 1 ≤ capacity) (w : ω)
include keyed room

/-- After any moves the cache is in order. -/
theorem sound_after (moves : List (Move ω)) : (store.after capacity w moves).Sound := by
  induction moves using List.reverseRecOn with
  | nil => exact ⟨Lru.wellFormed_empty capacity, room⟩
  | append_singleton moves m ih =>
    rw [after_concat]
    exact sound_next keyed ih m

/-- What is held of a table has been read out of the store since the table was forgotten. The
induction is on the moves from their end, as the last one may have read it anew. -/
theorem recent_of_held (moves : List (Move ω)) {id : TableId} {tablets : List Tablet}
    (held : (store.after capacity w moves).held id = some tablets) :
    ∃ earlier later, moves = earlier ++ later ∧ (∀ m ∈ later, m.invalidates id = false) ∧
      store.tabletsNow (store.after capacity w earlier).backing id = .ok tablets := by
  -- induction on the moves from the last one on: either it has read the tablets, or they were held
  -- before it
  induction moves using List.reverseRecOn with
  | nil =>
    rw [held_empty] at held
    cases held
  | append_singleton moves m ih =>
    have sound := sound_after keyed room w moves
    rw [after_concat] at held
    cases serves_next keyed sound m id with
    | kept same =>
      obtain ⟨earlier, later, rfl, live, now⟩ := ih (same.symm.trans held)
      refine ⟨earlier, later ++ [m], List.append_assoc .., fun m' hm' => ?_, now⟩
      rcases List.mem_append.mp hm' with hm' | hm'
      · exact live m' hm'
      · rw [List.mem_singleton.mp hm', ← Bool.not_eq_true]
        intro forgets
        rw [held_next_of_invalidates sound forgets] at held
        cases held
    | dropped gone =>
      rw [gone] at held
      cases held
    | read asked held' now =>
      rw [held'] at held
      cases held
      refine ⟨moves ++ [m], [], (List.append_nil _).symm, by simp, ?_⟩
      rw [after_concat]
      exact now

/-- Nothing is held of a table that has not been resolved since it was forgotten, or ever. So the
next resolution reads the store. -/
theorem held_of_unresolved (before since : List (Move ω)) {id : TableId}
    (forgotten : ∀ m ∈ before.getLast?, m.invalidates id = true)
    (unasked : ∀ m ∈ since, m.resolves id = false) :
    (store.after capacity w (before ++ since)).held id = none := by
  induction since using List.reverseRecOn with
  | nil =>
    rw [List.append_nil]
    rcases List.eq_nil_or_concat' before with rfl | ⟨before, m, rfl⟩
    · exact held_empty capacity w id
    · rw [after_concat]
      exact held_next_of_invalidates (sound_after keyed room w before) (forgotten m (by simp))
  -- only a resolution of the table reads its tablets, so nothing comes to be held
  | append_singleton since m ih =>
    rw [← List.append_assoc, after_concat]
    have none := ih fun m' hm' => unasked m' (List.mem_append_left _ hm')
    have unasked := unasked m (List.mem_append_right _ List.mem_cons_self)
    cases serves_next keyed (sound_after keyed room w (before ++ since)) m id with
    | kept same => exact same.trans none
    | dropped gone => exact gone
    | read asked held now =>
      rw [unasked] at asked
      cases asked

/-- Each resolution locates ranges in the tablets that the store had of the table at some moment
since the table was last invalidated. They are those that the store has now, if this is the first
resolution since then, or at all. Resolving or invalidating another table either changes nothing
about that, or brings the tablets of this one up to date. -/
theorem resolved_recent (moves : List (Move ω)) (id : TableId) :
    (∃ earlier later, moves = earlier ++ later ∧ (∀ m ∈ later, m.invalidates id = false) ∧
      ∀ ranges, store.resolved (store.after capacity w moves) id ranges =
        store.answer (store.after capacity w earlier).backing id ranges) ∧
    (∀ before since, moves = before ++ since →
      (∀ m ∈ before.getLast?, m.invalidates id = true) → (∀ m ∈ since, m.resolves id = false) →
      ∀ ranges, store.resolved (store.after capacity w moves) id ranges =
        store.answer (store.after capacity w moves).backing id ranges) ∧
    ∀ m : Move ω, m.isAside id = true →
      (store.after capacity w (moves ++ [m])).backing = (store.after capacity w moves).backing ∧
      ((∀ ranges, store.resolved (store.after capacity w (moves ++ [m])) id ranges =
          store.resolved (store.after capacity w moves) id ranges) ∨
        ∀ ranges, store.resolved (store.after capacity w (moves ++ [m])) id ranges =
          store.answer (store.after capacity w moves).backing id ranges) := by
  have sound := sound_after keyed room w moves
  -- what is held was read at some moment since then; where nothing is held the store is asked now;
  -- and a move aside keeps what is held or drops it
  refine ⟨?_, ?_, fun m aside => ?_⟩
  · cases held : (store.after capacity w moves).held id with
    | none =>
      exact ⟨moves, [], (List.append_nil _).symm, by simp, resolved_of_none keyed sound held⟩
    | some tablets =>
      obtain ⟨earlier, later, split, live, now⟩ := recent_of_held keyed room w moves held
      refine ⟨earlier, later, split, live, fun ranges => ?_⟩
      rw [resolved_eq keyed sound, seen_of_held held]
      unfold answer
      rw [now]
  · rintro before since rfl forgotten unasked
    exact resolved_of_none keyed sound
      (held_of_unresolved keyed room w before since forgotten unasked)
  · have same := backing_next_of_isAside keyed sound aside
    have sound' := sound_next keyed sound m
    rw [after_concat]
    refine ⟨same, ?_⟩
    cases serves_next keyed sound m id with
    | kept held =>
      refine .inl fun ranges => ?_
      rw [resolved_eq keyed sound', resolved_eq keyed sound]
      unfold seen
      rw [held, same]
    | dropped gone =>
      refine .inr fun ranges => ?_
      rw [resolved_of_none keyed sound' gone, same]
    | read asked held now =>
      rw [Move.resolves_of_isAside aside] at asked
      cases asked

end

/-! ### A registry -/

/-- A registry has no tablets of an id that no table has. -/
theorem tablets?_registry_of_none {r : Registry} {id : TableId} (scalar : id.isScalar = true)
    (h : r.tables.get? id = none) : Registry.store.tablets? r id = .ok none := by
  have unknown : Registry.store.tablets r id = .error (.unknownTableId id) := by
    show (r.table id >>= Table.sorted) = _
    rw [Registry.table_of_none scalar h]
    rfl
  unfold tablets?
  rw [unknown]
  rfl

/-- A registry refuses an id that cannot be looked up. -/
theorem unlike_registry {id : TableId} (h : id.isScalar = false) (r : Registry) :
    Registry.store.tablets? r id = .error .unlike := by
  have unlike : Registry.store.tablets r id = .error .unlike := by
    show (r.table id >>= Table.sorted) = _
    unfold Registry.table
    rw [h]
    rfl
  unfold tablets?
  rw [unlike]

/-- A registry finds tables by their ids, and equal ids find the same one. -/
theorem keyed_registry : Registry.store.Keyed where
  congr {id other} same r := by
    have sort := Json.isScalar_eq_of_beq same
    have found := Ledger.get?_congr r.tables same
    -- tables with equal identifiers have one entry, and no table has one that cannot be a key
    cases scalar : other.isScalar with
    | false =>
      rw [unlike_registry (sort.trans scalar), unlike_registry scalar]
    | true =>
      have scalar' := sort.trans scalar
      cases h : r.tables.get? other with
      | none =>
        rw [tablets?_registry_of_none scalar h, tablets?_registry_of_none scalar' (found.trans h)]
      | some t =>
        have listed : Registry.store.tablets r other = t.sorted :=
          Registry.tablets_of_table (Registry.table_of_get? scalar h)
        have listed' : Registry.store.tablets r id = t.sorted :=
          Registry.tablets_of_table (Registry.table_of_get? scalar' (found.trans h))
        unfold tablets?
        rw [listed, listed']
  unlike := unlike_registry

/-- After a table has been resolved, changed and invalidated, its ranges are located where its
tablets are now. -/
theorem resolved_halves :
    Registry.store.resolved (Registry.store.after 1 .halfHosted
        [.resolve (.text "1") [.acrossHalves],
          .change (Registry.moveUpperHalf (some (.text "b:1"))), .invalidate (.text "1")])
      (.text "1") [.acrossHalves] =
    Registry.store.answer (.halves .online (some (.text "a:1")) (some (.text "b:1")))
      (.text "1") [.acrossHalves] := by
  have recent := resolved_recent keyed_registry (Int.le_refl 1) .halfHosted
    [.resolve (.text "1") [.acrossHalves],
      .change (Registry.moveUpperHalf (some (.text "b:1"))), .invalidate (.text "1")] (.text "1")
  refine (recent.2.1 _ [] (List.append_nil _).symm ?_ (by simp) [.acrossHalves]).trans ?_
  · rintro m ⟨⟩
    rfl
  · rfl

end Store

end ScanPlanner
