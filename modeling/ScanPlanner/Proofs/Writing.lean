import ScanPlanner.Proofs.Partition
import ScanPlanner.Proofs.TakingOffline
import ScanPlanner.Proofs.Unnamed

/-!
# Changes, write by write

A change of a registry writes to the number of the next table, to the names and to the tables one
after the other (`Registry.inSteps`), and what fails behind a write leaves that write in place. Each
write finds what it needs, since every name leads to a table and every extent of a table can be
looked up (`Registry.Sturdy`). So the writes come to what the change is as a whole
(`Registry.outcome_inSteps`), and a well-formed change that fails has failed before the first of
them (`Registry.unchanged_of_failure`). What is asked of a change that is not well-formed is not
enough to keep it from failing later (`Registry.changed_illFormed`).
-/

namespace ScanPlanner

/-! ## Writes -/

namespace Effect

variable {ω : Type}

/-- Writes to the world. -/
def write (f : ω → ω) : Effect ω Unit := do setWorld (f (← world))

@[simp] theorem outcome_write (f : ω → ω) (s : Scene ω) :
    outcome (write f) s = (.ok (), { s with world := f s.world }) := rfl

/-- A change of the world that gives a new world is made. -/
theorem outcome_change_of_ok {f : ω → Result ω} {w w' : ω} (h : f w = .ok w') (notes : List Note) :
    outcome (change f) ⟨w, notes⟩ = (.ok (), ⟨w', notes⟩) := by
  unfold change
  simp only [outcome_bind, outcome_world, h, outcome_ofResult]
  rfl

/-- A change that fails leaves the world as it was: what it would write is told before anything is
written. -/
theorem outcome_change_of_error {f : ω → Result ω} {w : ω} {e : Failure} (h : f w = .error e)
    (notes : List Note) : outcome (change f) ⟨w, notes⟩ = (.error e, ⟨w, notes⟩) := by
  unfold change
  simp only [outcome_bind, outcome_world, h, outcome_ofResult]

end Effect

/-! ## The writes of a change -/

/-- As many places are given as there are tablets, if any are given. -/
def Places.checkCount (count : Nat) : Places → Result Unit
  | .nowhere => .ok ()
  | .listed places =>
    if places.length = count then .ok ()
    else .error (.invalid (.locationCount count places.length))
  | .named present =>
    if present = count then .ok () else .error (.invalid (.locationCount count present))
  | .malformed => .error .unlike

/-- A failure to create a table that comes when its number has been taken: a place is looked up that
is not there, or there is nothing between two split points. -/
def Failure.isLate : Failure → Bool
  | .missing _ => true
  | .invalid (.extentOrder _ _) => true
  | _ => false

/-- The places are counted before one of them is looked up. Only places that have names are not
found then, and they are as many as are needed. -/
theorem Places.checkCount_cases (places : Places) (count : Nat) :
    (∃ f : Failure, f.isLate = false ∧ places.checkCount count = .error f ∧
      places.forTablets count = .error f) ∨
    places.checkCount count = .ok () ∧
      (places = .named count ∧ places.forTablets count = .error (.missing "0") ∨
        ∃ locations, places.forTablets count = .ok locations) := by
  -- the count of a mapping is checked too, but its places are then asked for by number
  cases places with
  | nowhere => exact .inr ⟨rfl, .inr ⟨_, rfl⟩⟩
  | listed places =>
    by_cases same : places.length = count
    · exact .inr ⟨by rw [checkCount, if_pos same], .inr ⟨_, by rw [forTablets, if_pos same]⟩⟩
    · exact .inl ⟨.invalid (.locationCount count places.length), rfl,
        by rw [checkCount, if_neg same], by rw [forTablets, if_neg same]⟩
  | named present =>
    by_cases same : present = count
    · exact .inr ⟨by rw [checkCount, if_pos same],
        .inl ⟨by rw [same], by rw [forTablets, if_pos same]⟩⟩
    · exact .inl ⟨.invalid (.locationCount count present), rfl,
        by rw [checkCount, if_neg same], by rw [forTablets, if_neg same]⟩
  | malformed => exact .inl ⟨.unlike, rfl, rfl, rfl⟩

namespace Registry

/-- What is asked of a new table before anything else: that its name is a new one, and that its
points are told apart and in order, as far as sorting them shows that. -/
def checkNew (r : Registry) (name : TableName) (points : List (Option RowKey)) : Result Unit := do
  if !name.isScalar then throw .unlike
  if (r.names.get? name).isSome then throw (.invalid (.tableTaken name.shown))
  if !points.all (·.all RowKey.isScalar) then throw .unlike
  if !points.all (fun p => points.all (comparablePoints p)) then throw .unlike
  if !ascending points then throw (.invalid (.splitPoints points))

/-- Writes the table with an id. -/
def putTable (r : Registry) (id : TableId) (t : Table) : Registry :=
  { r with tables := r.tables.put id t }

/-- Gives the next number away. -/
def takeNumber : Effect Registry Nat := do
  let r ← Effect.world
  Effect.setWorld { r with nextId := r.nextId + 1 }
  return r.nextId

/-- Puts a new table in. Its number is taken before its tablets are made, and its name is written
before the table. -/
def createInSteps (name : TableName) (points : List (Option RowKey)) (places : Places)
    (state : TableState) : Effect Registry TableId := do
  Effect.ask (·.checkNew name points)
  Effect.ofResult (places.checkCount (points.length + 1))
  let number ← takeNumber
  let id : TableId := .text (toString number)
  let locations ← Effect.ofResult (places.forTablets (points.length + 1))
  let tablets ← Effect.ofResult (chain id points locations)
  Effect.write fun r => { r with names := r.names.put name id }
  Effect.write (·.putTable id ⟨state, tablets⟩)
  return id

/-- Takes a table online or offline. The state is written first; then the tablets of a table that is
taken offline are moved one by one, and the table is looked up for each. -/
def setStateInSteps (name : TableName) (state : TableState) : Effect Registry Unit := do
  let (id, t) ← Effect.ask (·.named name)
  Effect.write (·.putTable id { t with state })
  match state with
  | .online => pure ()
  | .offline => t.tablets.keys.forM fun e => Effect.change (·.setLocation name e none)

/-- Writes the id of a name, if the name can be looked up. It is the last write of a renaming, and
the old name is gone when it fails. -/
def putName (r : Registry) (name : TableName) (id : TableId) : Result Registry :=
  if !name.isScalar then .error .unlike else .ok { r with names := r.names.put name id }

/-- Gives a table another name. The old one is removed before the new one is written. -/
def renameInSteps (name newName : TableName) : Effect Registry Unit := do
  let id ← Effect.ask (·.tableId name)
  Effect.write fun r => { r with names := r.names.erase name }
  Effect.change (·.putName newName id)

/-- Removes a name, and tells its id. -/
def removeName (name : TableName) : Effect Registry TableId := do
  let id ← Effect.ask fun r =>
    if !name.isScalar then .error .unlike
    else match r.names.get? name with
      | some id => .ok id
      | none => .error (.missing name.quoted)
  Effect.write fun r => { r with names := r.names.erase name }
  return id

/-- Deletes a table. Its name is removed before the table. -/
def deleteInSteps (name : TableName) : Effect Registry Unit := do
  let id ← removeName name
  Effect.change fun r => do
    if ← r.tableExists id then return { r with tables := r.tables.erase id }
    else throw (.missing id.quoted)

/-- Carries a change out write by write. What has been written remains when a later step fails, and
that is what the registry after a failure is found from. -/
def inSteps : Change → Effect Registry Unit
  | .create name points places state => do
    let _ ← createInSteps name points places state
  | .setLocation name ref location => do
    let e ← Effect.ask (·.extent name ref)
    Effect.change (·.setLocation name e location)
  | .setState name state => setStateInSteps name state
  | .remove name ref => do
    let e ← Effect.ask (·.extent name ref)
    Effect.change (·.remove name e)
  | .put name tablet => Effect.change (·.put name tablet)
  | .rename name newName => renameInSteps name newName
  | .delete name => deleteInSteps name

variable {r r' : Registry} {name newName : TableName} {id : TableId} {t : Table} {change : Change}
  {points : List (Option RowKey)} {places : Places} {state : TableState} {notes : List Note}

/-! ## What the writes find -/

/-- Names lead to tables, and the extents of each table can be looked up. This is what the writes of
a change rely on after its first one. -/
structure Sturdy (r : Registry) : Prop where
  orderly : r.Orderly
  keyed : r.Each Table.Keyed

theorem sturdy_empty : empty.Sturdy := ⟨orderly_empty, fun _ h => (List.not_mem_nil h).elim⟩

/-- Any change of a sturdy registry leads to a sturdy one, whether it fails or not. -/
theorem sturdy_transition (h : r.Sturdy) (ht : r.Transition change r') : r'.Sturdy where
  orderly := orderly_transition h.orderly ht
  keyed := lasting_keyed.each_transition h.keyed (fun _ _ _ key _ keyed => keyed.put key _) ht

/-- So after any history the registry is sturdy. -/
theorem sturdy_run (changes : List Change) : (empty.run changes).Sturdy :=
  run_keeps (fun _ _ _ _ h ht => sturdy_transition h ht) sturdy_empty

/-! ## A change as a whole -/

/-- To carry a change out ends as applying it does, and leaves the registry that comes next: the one
that was applied for, or what a failure leaves behind. -/
theorem outcome_carryOut (r : Registry) (change : Change) (notes : List Note) :
    outcome (carryOut change) ⟨r, notes⟩ =
      ((r.apply change).map fun _ => (), ⟨r.next change, notes⟩) := by
  unfold carryOut next
  rw [outcome_bind, Effect.outcome_world]
  cases h : r.apply change with
  | ok r' =>
    simp only [h]
    rfl
  | error f =>
    simp only [h]
    rfl

/-- A change that is a single write leaves the registry as it is if it fails, so it comes to the
same as the change carried out as a whole. -/
theorem outcome_change {f : Registry → Result Registry} (same : r.apply change = f r)
    (kept : r.afterFailure change = r) (notes : List Note) :
    outcome (Effect.change f) ⟨r, notes⟩ = outcome (carryOut change) ⟨r, notes⟩ := by
  rw [outcome_carryOut]
  unfold next
  rw [same]
  cases h : f r with
  | ok r' => exact Effect.outcome_change_of_ok h notes
  | error e =>
    rw [Effect.outcome_change_of_error h]
    dsimp only
    rw [kept]
    rfl

/-- A change of one tablet writes once, after the extent that is meant has been found. -/
theorem outcome_change_extent {f : Registry → Extent → Result Registry} {ref : ExtentRef}
    (same : r.apply change = do f r (← r.extent name ref)) (kept : r.afterFailure change = r)
    (notes : List Note) :
    outcome (do let e ← Effect.ask (·.extent name ref); Effect.change (f · e)) ⟨r, notes⟩ =
      outcome (carryOut change) ⟨r, notes⟩ := by
  rw [outcome_bind, Effect.outcome_ask]
  cases h : r.extent name ref with
  | ok e =>
    rw [h, Result.bind_ok] at same
    exact outcome_change same kept notes
  | error e =>
    rw [h, Result.bind_error] at same
    rw [outcome_carryOut]
    unfold next
    rw [same]
    dsimp only
    rw [kept]
    rfl

/-! ## Creating -/

/-- What is known of the points of a new table when they have been asked all that they are asked:
all of them can be looked up, any two of them can be compared, and each is before the next. -/
structure Passing (points : List (Option RowKey)) : Prop where
  keys : points.all (·.all RowKey.isScalar) = true
  comparable : points.all (fun p => points.all (comparablePoints p)) = true
  ascending : ascending points = true

/-- What is asked of a new table first fails before its number is taken. -/
theorem checkNew_cases (r : Registry) (name : TableName) (points : List (Option RowKey)) :
    (∃ f : Failure, r.checkNew name points = .error f ∧ f.isLate = false) ∨
      r.checkNew name points = .ok () ∧ Passing points := by
  unfold checkNew
  -- the checks of the creation one after the other; what passes them all is a passing list
  by_cases hname : (!name.isScalar) = true
  · exact .inl ⟨.unlike, by rw [if_pos hname]; rfl, rfl⟩
  rw [if_neg hname]
  by_cases taken : (r.names.get? name).isSome = true
  · exact .inl ⟨.invalid (.tableTaken name.shown), by rw [if_pos taken]; rfl, rfl⟩
  rw [if_neg taken]
  by_cases parts : (!points.all (·.all RowKey.isScalar)) = true
  · exact .inl ⟨.unlike, by rw [if_pos parts]; rfl, rfl⟩
  rw [if_neg parts]
  by_cases unlike : (!points.all fun p => points.all (comparablePoints p)) = true
  · exact .inl ⟨.unlike, by rw [if_pos unlike]; rfl, rfl⟩
  rw [if_neg unlike]
  by_cases disorder : (!Registry.ascending points) = true
  · exact .inl ⟨.invalid (.splitPoints points), by rw [if_pos disorder]; rfl, rfl⟩
  rw [if_neg disorder]
  rw [Bool.not_eq_true, Bool.not_eq_false'] at parts unlike disorder
  exact .inr ⟨rfl, parts, unlike, disorder⟩

/-- To create a table is to ask what has to be asked, and then to look the places up and make the
tablets. -/
theorem create_eq (r : Registry) (name : TableName) (points : List (Option RowKey))
    (places : Places) (state : TableState) :
    r.create name points places state = (do
      r.checkNew name points
      let locations ← places.forTablets (points.length + 1)
      let id : TableId := .text (toString r.nextId)
      let tablets ← chain id points locations
      return (id, ⟨r.names.put name id, r.tables.put id ⟨state, tablets⟩, r.nextId + 1⟩)) := by
  unfold create checkNew
  by_cases hname : (!name.isScalar) = true
  · rw [if_pos hname, if_pos hname]
    rfl
  rw [if_neg hname, if_neg hname]
  by_cases taken : (r.names.get? name).isSome = true
  · rw [if_pos taken, if_pos taken]
    rfl
  rw [if_neg taken, if_neg taken]
  by_cases parts : (!points.all (·.all RowKey.isScalar)) = true
  · rw [if_pos parts, if_pos parts]
    rfl
  rw [if_neg parts, if_neg parts]
  by_cases unlike : (!points.all fun p => points.all (comparablePoints p)) = true
  · rw [if_pos unlike, if_pos unlike]
    rfl
  rw [if_neg unlike, if_neg unlike]
  by_cases disorder : (!ascending points) = true
  · rw [if_pos disorder, if_pos disorder]
  · rw [if_neg disorder, if_neg disorder]
    rfl

/-- Tablets are made as long as their extents are; the first extent that is not made is why none is.
Bounds without a place make no extent. -/
theorem exists_chain_or_error (id : TableId) (points : List (Option RowKey))
    (locations : List (Option Address)) :
    (∃ tablets, chain id points locations = .ok tablets) ∨
      ∃ b ∈ chainBounds none points, ∃ f, Extent.make id b.1 b.2 = .error f ∧
        chain id points locations = .error f := by
  unfold chain
  have bounds : ∀ p ∈ (chainBounds none points).zip locations, p.1 ∈ chainBounds none points :=
    fun p hp => (List.of_mem_zip hp).1
  generalize (chainBounds none points).zip locations = places at bounds
  generalize ([] : Ledger Extent Tablet) = made
  -- induction on the places that are left, for any tablets that have been made
  induction places generalizing made with
  | nil => exact .inl ⟨made, rfl⟩
  | cons p places ih =>
    obtain ⟨first, rest⟩ := List.forall_mem_cons.mp bounds
    rw [List.foldlM_cons]
    cases he : Extent.make id p.1.1 p.1.2 with
    | ok e =>
      simp only [he, Result.bind_ok, Result.pure_eq]
      exact ih rest _
    | error f =>
      refine .inr ⟨p.1, first, f, he, ?_⟩
      simp only [he, Result.bind_error]

/-- An extent that is not made lies between two rows, which are not in order or have no order. With
one of the rows missing there is nothing to compare. -/
theorem exists_rows_of_make_eq_error {prev last : Option RowKey} {f : Failure}
    (h : Extent.make id prev last = .error f) : ∃ p l, prev = some p ∧ last = some l ∧
      f = if (p.before? l).isSome then .invalid (.extentOrder p l) else .unlike := by
  unfold Extent.make at h
  split at h
  · cases h
  · next fails =>
    cases prev with
    | none => exact absurd ⟨rfl, by cases last <;> trivial⟩ fails
    | some p =>
      cases last with
      | none => exact absurd ⟨rfl, trivial⟩ fails
      | some l =>
        cases h
        exact ⟨p, l, rfl, rfl, rfl⟩

/-- Points that have been found to be in order have an order, so tablets between them are not made
only if there is nothing between two of them. -/
theorem Passing.isLate_of_chain (h : Passing points) {locations : List (Option Address)}
    {f : Failure} (failed : chain id points locations = .error f) : f.isLate = true := by
  rcases exists_chain_or_error id points locations with ⟨_, made⟩ | ⟨b, hb, f', he, made⟩
  · rw [made] at failed
    cases failed
  rw [made] at failed
  cases failed
  obtain ⟨p, l, prev, last, e⟩ := exists_rows_of_make_eq_error he
  have hp : some p ∈ points := prev ▸ (fst_of_mem_chainBounds hb).resolve_left (by rw [prev]; nofun)
  have hl : some l ∈ points := last ▸ (snd_of_mem_chainBounds hb).resolve_left (by rw [last]; nofun)
  -- the two split points were compared by the check, so the failure is about their order
  have order : (p.before? l).isSome = true := by
    have both := List.all_eq_true.mp (List.all_eq_true.mp h.comparable _ hp) _ hl
    unfold comparablePoints at both
    rw [Bool.or_eq_true, beq_iff_eq] at both
    rcases both with same | before
    · cases same
      exact RowKey.isSome_before?_self (List.all_eq_true.mp h.keys _ hp)
    · exact before
  rw [e, if_pos order]
  rfl

/-- The bounds that keys in strict order make are in order themselves. -/
theorem behind_lt_upTo_chainBounds {ks : List RowKey} (sorted : ks.Pairwise (· < ·))
    {prev : Option RowKey} (lo : ∀ k ∈ ks, Cut.behind prev < .after k) :
    ∀ b ∈ chainBounds prev (ks.map some), Cut.behind b.1 < Cut.upTo b.2 := by
  induction ks generalizing prev with
  | nil =>
    intro b hb
    rw [List.mem_singleton.mp hb]
    cases prev <;> trivial
  | cons k ks ih =>
    obtain ⟨behind, rest⟩ := List.pairwise_cons.mp sorted
    intro b hb
    rcases List.mem_cons.mp hb with rfl | hb
    · exact lo k List.mem_cons_self
    · have lo : ∀ l ∈ ks, Cut.behind (some k) < .after l := behind
      exact ih rest lo b hb

/-- Keys of one sort that sorting leaves in their places are in strict order. A number without a
place has no sort, and could stay in its place anywhere. -/
theorem pairwise_lt_of_inPlace {ks : List RowKey} (sort : OneSort ks)
    (h : inPlace (ks.map some) = true) : ks.Pairwise (· < ·) := by
  have adjacent : ks.IsChain (· < ·) := by
    induction ks with
    | nil => exact .nil
    | cons k ks ih =>
      cases ks with
      | nil => exact .singleton k
      | cons l ks =>
        have alike := sort k List.mem_cons_self l (List.mem_cons_of_mem _ List.mem_cons_self)
        rw [List.map_cons, List.map_cons, inPlace, alike, Bool.and_eq_true, Bool.not_true,
          Bool.or_false, decide_eq_true_eq] at h
        exact .cons_cons h.1 (ih (sort.subset (List.subset_cons_self _ _)) h.2)
  exact List.isChain_iff_pairwise.mp adjacent

/-- Each extent between points that have been found to be in order is made, unless one of the points
stands beside others and has no place among them. -/
theorem Passing.exists_make (h : Passing points)
    (numbers : some RowKey.nan ∈ points → points = [some .nan]) (id : TableId) :
    ∀ b ∈ chainBounds none points, ∃ e, Extent.make id b.1 b.2 = .ok e := by
  by_cases alone : some RowKey.nan ∈ points
  · rw [numbers alone]
    intro b hb
    rcases List.mem_pair.mp hb with rfl | rfl <;> exact ⟨_, rfl⟩
  have inPlace := inPlace_of_ascending h.ascending
  rcases inPlace_cases inPlace with rfl | ⟨ks, rfl⟩
  · -- a point that is missing stands alone, and both tablets have all keys
    intro b hb
    rcases List.mem_pair.mp hb with rfl | rfl <;> exact ⟨_, rfl⟩
  · have kinds : ∀ k ∈ ks, k.kind?.isSome = true := fun k hk =>
      RowKey.kind_of_isScalar (List.all_eq_true.mp h.keys _ (List.mem_map_of_mem hk))
        fun same => alone (same ▸ List.mem_map_of_mem hk)
    have sort := oneSort_of_comparable kinds h.comparable
    have sorted := pairwise_lt_of_inPlace sort inPlace
    intro b hb
    cases made : Extent.make id b.1 b.2 with
    | ok e => exact ⟨e, rfl⟩
    | error f =>
      -- an extent that is not made lies between two points, which are alike and in order
      obtain ⟨p, l, prev, last, -⟩ := exists_rows_of_make_eq_error made
      have point {k : RowKey} {q : Option RowKey} (e : q = some k)
          (hq : q = none ∨ q ∈ ks.map some) : k ∈ ks := by
        subst e
        obtain ⟨k', hk', e⟩ := List.mem_map.mp (hq.resolve_left nofun)
        cases e
        exact hk'
      have first : ∀ k ∈ ks, Cut.behind none < .after k := fun _ _ => trivial
      have order := behind_lt_upTo_chainBounds sorted first b hb
      have alike := sort p (point prev (fst_of_mem_chainBounds hb)) l
        (point last (snd_of_mem_chainBounds hb))
      rw [prev, last] at made order
      rw [Extent.make, dif_pos ⟨RowKey.told_of_alike alike, order⟩] at made
      cases made

/-- How far creating a table comes. A check fails, or the places are not as many as are needed; or
the number of the table has been taken when the places turn out to have names, or when there turns
out to be nothing between two points; or its tablets are made. -/
inductive Stage (r : Registry) (name : TableName) (points : List (Option RowKey))
    (places : Places) : Prop where
  | refused (f : Failure) (early : f.isLate = false)
      (failed : r.checkNew name points = .error f)
  | miscounted (f : Failure) (early : f.isLate = false)
      (checked : r.checkNew name points = .ok ())
      (failed : places.checkCount (points.length + 1) = .error f)
      (same : places.forTablets (points.length + 1) = .error f)
  | unplaced (checked : r.checkNew name points = .ok ())
      (counted : places.checkCount (points.length + 1) = .ok ())
      (named : places = .named (points.length + 1))
      (missing : places.forTablets (points.length + 1) = .error (.missing "0"))
  | unmade (f : Failure) (late : f.isLate = true) (locations : List (Option Address))
      (checked : r.checkNew name points = .ok ())
      (counted : places.checkCount (points.length + 1) = .ok ())
      (located : places.forTablets (points.length + 1) = .ok locations)
      (beside : ¬(some RowKey.nan ∈ points → points = [some .nan]))
      (failed : chain (.text (toString r.nextId)) points locations = .error f)
  | made (locations : List (Option Address)) (tablets : Ledger Extent Tablet)
      (checked : r.checkNew name points = .ok ())
      (counted : places.checkCount (points.length + 1) = .ok ())
      (located : places.forTablets (points.length + 1) = .ok locations)
      (made : chain (.text (toString r.nextId)) points locations = .ok tablets)

/-- Creating a table ends at one of the stages. Both the creation as a whole and the one write by
write are followed by these. -/
theorem create_stages (r : Registry) (name : TableName) (points : List (Option RowKey))
    (places : Places) : Stage r name points places := by
  rcases checkNew_cases r name points with ⟨f, failed, early⟩ | ⟨checked, passing⟩
  · exact .refused f early failed
  rcases places.checkCount_cases (points.length + 1) with
    ⟨f, early, failed, same⟩ | ⟨counted, ⟨named, missing⟩ | ⟨locations, located⟩⟩
  · exact .miscounted f early checked failed same
  · exact .unplaced checked counted named missing
  rcases exists_chain_or_error (.text (toString r.nextId)) points locations with
    ⟨tablets, made⟩ | ⟨b, hb, f, unmade, failed⟩
  · exact .made locations tablets checked counted located made
  · refine .unmade f (passing.isLate_of_chain failed) locations checked counted located ?_ failed
    intro numbers
    obtain ⟨e, made⟩ := passing.exists_make numbers _ b hb
    rw [made] at unmade
    cases unmade

/-- A failure before the number is taken leaves the registry as it is. -/
theorem next_of_create_early {f : Failure} (h : r.create name points places state = .error f)
    (early : f.isLate = false) : r.next (.create name points places state) = r := by
  simp only [next, apply, afterFailure, h, Result.bind_error]
  split
  · next e =>
    cases e
    cases early
  · next e =>
    cases e
    cases early
  · rfl

/-- A failure after the number is taken has used it up, and has changed nothing else: the name and
the table are written last. -/
theorem next_of_create_late {f : Failure} (h : r.create name points places state = .error f)
    (late : f.isLate = true) :
    r.next (.create name points places state) = { r with nextId := r.nextId + 1 } := by
  simp only [next, apply, afterFailure, h, Result.bind_error]
  split
  · rfl
  · rfl
  · next missing order =>
    unfold Failure.isLate at late
    split at late
    · exact absurd rfl (missing _)
    · exact absurd rfl (order _ _)
    · cases late

@[simp] theorem outcome_takeNumber (s : Scene Registry) :
    outcome takeNumber s =
      (.ok s.world.nextId, { s with world := { s.world with nextId := s.world.nextId + 1 } }) := rfl

/-- Creating a table write by write ends as creating it as a whole, at whatever stage it ends. -/
theorem outcome_createInSteps (r : Registry) (name : TableName) (points : List (Option RowKey))
    (places : Places) (state : TableState) (notes : List Note) :
    outcome (createInSteps name points places state) ⟨r, notes⟩ =
      ((r.create name points places state).map Prod.fst,
        ⟨r.next (.create name points places state), notes⟩) := by
  have create := create_eq r name points places state
  unfold createInSteps
  -- one case for each stage at which creating can stop, and one for its end
  cases create_stages r name points places with
  | refused f early failed =>
    rw [failed, Result.bind_error] at create
    rw [next_of_create_early create early, create]
    simp only [outcome_bind, Effect.outcome_ask, failed]
    rfl
  | miscounted f early checked failed same =>
    rw [checked, same, Result.bind_ok, Result.bind_error] at create
    rw [next_of_create_early create early, create]
    simp only [outcome_bind, Effect.outcome_ask, Effect.outcome_ofResult, checked, failed]
    rfl
  | unplaced checked counted named missing =>
    rw [checked, missing, Result.bind_ok, Result.bind_error] at create
    rw [next_of_create_late create rfl, create]
    simp only [outcome_bind, Effect.outcome_ask, Effect.outcome_ofResult, checked, counted, missing,
      outcome_takeNumber]
    rfl
  | unmade f late locations checked counted located beside failed =>
    rw [checked, located] at create
    simp only [Result.bind_ok, failed, Result.bind_error] at create
    rw [next_of_create_late create late, create]
    simp only [outcome_bind, Effect.outcome_ask, Effect.outcome_ofResult, checked, counted, located,
      outcome_takeNumber, failed]
    rfl
  | made locations tablets checked counted located made =>
    rw [checked, located] at create
    simp only [Result.bind_ok, made] at create
    rw [next_of_create create, create]
    simp only [outcome_bind, Effect.outcome_ask, Effect.outcome_ofResult, checked, counted, located,
      outcome_takeNumber, made, Effect.outcome_write]
    rfl

/-! ## Changing a table -/

/-- A table that is written keeps its name, so further writes of the same change find it. -/
theorem named_putTable (h : r.named name = .ok (id, t)) (t' : Table) :
    (r.putTable id t').named name = .ok (id, t') := by
  obtain ⟨leads, there⟩ := named_eq_ok h
  have leads' : (r.putTable id t').tableId name = .ok id := leads
  have there' : (r.putTable id t').table id = .ok t' :=
    table_of_get? (get?_of_table there).1 (Ledger.get?_put_self _ _ _)
  unfold named
  rw [leads', Result.bind_ok, there']
  rfl

theorem putTable_putTable (r : Registry) (id : TableId) (t t' : Table) :
    (r.putTable id t).putTable id t' = r.putTable id t' := by
  unfold putTable
  rw [Ledger.put_put]

/-- To move a tablet of a named table is to write the table with the moved tablet. -/
theorem setLocation_of_named (h : r.named name = .ok (id, t)) {e : Extent} {tablet : Tablet}
    (found : t.tablet e = .ok tablet) (location : Option Address) : r.setLocation name e location =
      .ok (r.putTable id ⟨t.state, t.tablets.put e (Table.moved e tablet location)⟩) := by
  unfold setLocation update
  simp only [h, Result.bind_ok, found]
  rfl

/-- The tablets of a table that is offline already are released one by one. Those in front have been
released; of the others none is missing. -/
theorem outcome_release (h : r.named name = .ok (id, t)) (rest done : Ledger Extent Tablet)
    (keyed : Table.Keyed (done ++ rest)) (notes : List Note) :
    outcome ((Ledger.keys rest).forM fun e => Effect.change (·.setLocation name e none))
        ⟨r.putTable id ⟨.offline, done ++ rest⟩, notes⟩ =
      (.ok (), ⟨r.putTable id ⟨.offline,
        done ++ rest.map fun (e, tablet) => (e, Table.moved e tablet none)⟩, notes⟩) := by
  -- induction on the tablets that are still to be released
  induction rest generalizing done with
  | nil => rfl
  | cons entry rest ih =>
    obtain ⟨e, tablet⟩ := entry
    have mem : (e, tablet) ∈ done ++ (e, tablet) :: rest :=
      List.mem_append_right _ List.mem_cons_self
    have key : e.isKey = true := keyed.keys e (List.mem_map_of_mem mem)
    have found : Table.tablet ⟨.offline, done ++ (e, tablet) :: rest⟩ e = .ok tablet := by
      unfold Table.tablet
      rw [key, Ledger.get?_of_mem keyed.distinct mem BEq.rfl]
      rfl
    have other : ∀ d ∈ done, (d.1 == e) = false := by
      have apart := keyed.distinct
      unfold Ledger.Distinct Ledger.keys at apart
      rw [List.map_append, List.pairwise_append] at apart
      exact fun d hd => apart.2.2 d.1 (List.mem_map_of_mem hd) e List.mem_cons_self
    have moved := setLocation_of_named (named_putTable h _) found none
    rw [putTable_putTable, Ledger.put_append_cons other] at moved
    have keyed' := keyed.put key (Table.moved e tablet none)
    rw [Ledger.put_append_cons other, List.append_cons] at keyed'
    have later := ih (done ++ [(e, Table.moved e tablet none)]) keyed'
    simp only [List.append_assoc, List.singleton_append] at later
    show outcome (Effect.change _ >>= fun _ => (Ledger.keys rest).forM _) _ = _
    rw [outcome_bind, Effect.outcome_change_of_ok moved]
    exact later

/-- Changing the state write by write ends as changing it as a whole: the table is found for each of
its tablets. -/
theorem outcome_setStateInSteps (h : r.Sturdy) (name : TableName) (state : TableState)
    (notes : List Note) : outcome (setStateInSteps name state) ⟨r, notes⟩ =
      outcome (carryOut (.setState name state)) ⟨r, notes⟩ := by
  unfold setStateInSteps
  rw [outcome_carryOut, outcome_bind, Effect.outcome_ask]
  cases hn : r.named name with
  | error f =>
    have failed : r.apply (.setState name state) = .error f := by
      show r.setState name state = _
      unfold setState update
      rw [hn]
      rfl
    unfold next
    rw [failed]
    rfl
  | ok found =>
    obtain ⟨id, t⟩ := found
    have applied := apply_setState hn state
    rw [next_of_apply applied, applied]
    -- going online writes the state only; going offline releases the tablets one after the other
    cases state with
    | online => rfl
    | offline => exact outcome_release hn t.tablets [] (each_table h.keyed (named_eq_ok hn).2) notes

/-! ## Changing names -/

/-- Renaming write by write ends as renaming as a whole, also where the new name cannot be looked up
and the old one is gone. -/
theorem outcome_renameInSteps (r : Registry) (name newName : TableName) (notes : List Note) :
    outcome (renameInSteps name newName) ⟨r, notes⟩ =
      outcome (carryOut (.rename name newName)) ⟨r, notes⟩ := by
  rw [outcome_carryOut]
  unfold renameInSteps
  simp only [next, apply, rename, afterFailure, outcome_bind, Effect.outcome_ask]
  cases hid : r.tableId name with
  | error f => rfl
  | ok id =>
    simp only [Result.bind_ok, Effect.outcome_write]
    -- the old name is taken away before the new one is looked at
    by_cases hname : (!newName.isScalar) = true
    · have bad : putName { r with names := r.names.erase name } newName id = .error .unlike :=
        if_pos hname
      rw [Effect.outcome_change_of_error bad, if_pos hname]
      rfl
    · have written : putName { r with names := r.names.erase name } newName id =
          .ok { r with names := (r.names.erase name).put newName id } := if_neg hname
      rw [Effect.outcome_change_of_ok written, if_neg hname]
      rfl

/-- The table whose name is removed is there, so it can be removed as well. Without this, a failure
between the two writes would leave a table without a name. -/
theorem outcome_deleteInSteps (h : r.Sturdy) (name : TableName) (notes : List Note) :
    outcome (deleteInSteps name) ⟨r, notes⟩ = outcome (carryOut (.delete name)) ⟨r, notes⟩ := by
  unfold deleteInSteps removeName
  rw [outcome_carryOut]
  unfold next apply delete afterFailure
  by_cases hname : (!name.isScalar) = true
  · simp only [outcome_bind, Effect.outcome_ask, if_pos hname]
    rfl
  cases hid : r.names.get? name with
  | none =>
    simp only [outcome_bind, Effect.outcome_ask, if_neg hname, hid]
    rfl
  | some id =>
    have leads : r.tableId name = .ok id := by
      unfold tableId
      rw [if_neg hname, hid]
    -- a name leads to a table that exists, so the table is taken away too
    have there : tableExists { r with names := r.names.erase name } id = .ok true :=
      h.orderly.leads.tableExists leads
    simp only [outcome_bind, Effect.outcome_ask, if_neg hname, hid, Effect.outcome_write,
      outcome_pure]
    refine Effect.outcome_change_of_ok ?_ notes
    simp only [there, Result.bind_ok]
    rfl

/-! ## Any change -/

/-- The writes of a change come to the change as a whole, also where it fails. The registry has to
be one that a history leads to, or a write in the middle could fail. -/
theorem outcome_inSteps (h : r.Sturdy) (change : Change) (notes : List Note) :
    outcome (inSteps change) ⟨r, notes⟩ = outcome (carryOut change) ⟨r, notes⟩ := by
  cases change with
  | create name points places state =>
    have applied : r.apply (.create name points places state) =
        (r.create name points places state).map Prod.snd := by
      simp only [apply]
      cases r.create name points places state <;> rfl
    show outcome (createInSteps name points places state >>= fun _ => pure ()) _ = _
    rw [outcome_bind_pure, outcome_createInSteps, outcome_carryOut, applied, Result.map_map,
      Result.map_map]
  | setLocation name ref location => exact outcome_change_extent rfl rfl notes
  | setState name state => exact outcome_setStateInSteps h name state notes
  | remove name ref => exact outcome_change_extent rfl rfl notes
  | put name tablet => exact outcome_change rfl rfl notes
  | rename name newName => exact outcome_renameInSteps r name newName notes
  | delete name => exact outcome_deleteInSteps h name notes

/-- Carrying a history out write by write leads where the changes lead as such. -/
theorem worldAfter_inSteps (changes : List Change) :
    Schedule.worldAfter empty (changes.map inSteps) = empty.run changes := by
  induction changes using List.reverseRecOn with
  | nil => rfl
  | append_singleton changes change ih =>
    rw [List.map_append, Schedule.worldAfter_append, ih, run_concat]
    show (outcome (inSteps change) ⟨empty.run changes, []⟩).2.world = _
    rw [outcome_inSteps (sturdy_run changes), outcome_carryOut]

/-- The places for a new table are not given by name, as many as are needed; a split point that has
no place among others stands alone; and a new name can be looked up. -/
def Change.WellFormed : Change → Prop
  | .create _ points places _ =>
    (some RowKey.nan ∈ points → points = [some .nan]) ∧ places ≠ .named (points.length + 1)
  | .rename _ newName => newName.isScalar = true
  | _ => True

/-- A registry with one table, `s`. -/
def oneTable : Registry := empty.run [.create (.text "s") [] .nowhere .online]

/-- The change fails, in either way of carrying it out, and the registry is another one then: a
table number is used up, or the names are not what they were. -/
def LeavesTraces (r : Registry) (change : Change) : Prop :=
  ∃ f scene,
    outcome (carryOut change) ⟨r, []⟩ = (.error f, scene) ∧
      outcome (inSteps change) ⟨r, []⟩ = (.error f, scene) ∧
      (scene.world.nextId ≠ r.nextId ∨ scene.world.names ≠ r.names)

/-- It is enough to look at the change as a whole, because its writes come to the same. -/
theorem Sturdy.leavesTraces {r r' : Registry} (h : r.Sturdy) {change : Change} {f : Failure}
    (failed : outcome (carryOut change) ⟨r, []⟩ = (.error f, ⟨r', []⟩))
    (changed : r'.nextId ≠ r.nextId ∨ r'.names ≠ r.names) : r.LeavesTraces change :=
  ⟨f, _, failed, (outcome_inSteps h change []).trans failed, changed⟩

/-- A well-formed change that fails leaves the registry as it is. Of the changes that can fail after
their first write, none is well-formed. -/
theorem next_of_failure {f : Failure} (formed : change.WellFormed) (h : r.apply change = .error f) :
    r.next change = r := by
  cases change with
  | create name points places state =>
    have failed : r.create name points places state = .error f := by
      rcases Result.bind_eq_error.mp h with h | ⟨_, -, h⟩
      · exact h
      · cases h
    have create := create_eq r name points places state
    -- the two late failures are those that a well-formed change does not have
    cases create_stages r name points places with
    | refused f' early failed' =>
      rw [failed', Result.bind_error] at create
      exact next_of_create_early create early
    | miscounted f' early checked _ same =>
      rw [checked, same, Result.bind_ok, Result.bind_error] at create
      exact next_of_create_early create early
    | unplaced _ _ named _ => exact absurd named formed.2
    | unmade _ _ _ _ _ _ beside _ => exact absurd formed.1 beside
    | made locations tablets checked _ located made =>
      rw [checked, located, failed] at create
      simp only [Result.bind_ok, made] at create
      cases create
  | rename name newName =>
    have h : r.rename name newName = .error f := h
    have formed : newName.isScalar = true := formed
    unfold rename at h
    cases hid : r.tableId name with
    | error f => simp only [next, apply, rename, afterFailure, hid, Result.bind_error]
    | ok id =>
      rw [hid, Result.bind_ok, formed] at h
      cases h
  | _ =>
    unfold next
    rw [h]
    rfl

end Registry

end ScanPlanner
