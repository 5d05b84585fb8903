import ScanPlanner.Proofs.History
import ScanPlanner.Proofs.Upholding
import ScanPlanner.Service.Catalog

/-!
# Backends whose rows can be compared

The rows of a tablet can be compared if it can be told which of them comes first
(`Tablet.Comparable`). A backend over a catalog assigns ranges to nothing but such rows if the
catalog has no others, whatever its cache has taken in before
(`Collaborators.comparable_ofCatalog`). Both catalogs are such: what a service sends is read into
tablets whose rows can be compared (`ServiceClient.comparable_catalog`), and a registry makes no
others and keeps none, unless one is put in (`Registry.comparable_catalog`,
`Registry.upholds_carryOut`). -/

namespace ScanPlanner

variable {ω α : Type}

/-! ## Catalogs and caches -/

/-- It can be told which row of the tablet comes first. -/
def Tablet.Comparable (t : Tablet) : Prop := t.extent.rows.Told

instance (t : Tablet) : Decidable t.Comparable := inferInstanceAs (Decidable (KeyRange.Told _))

/-- The catalog upholds an invariant of its world, and the rows of its tablets can be compared. The
invariant is what makes the second part true: a catalog whose world holds just anything would list
just anything. -/
structure Catalog.Comparable (cat : Catalog ω) (J : ω → Prop) : Prop where
  tableId : ∀ name, Effect.Upholds J (cat.tableId name) fun _ => True
  tableExists : ∀ id, Effect.Upholds J (cat.tableExists id) fun _ => True
  tableState : ∀ id, Effect.Upholds J (cat.tableState id) fun _ => True
  tablets : ∀ id, Effect.Upholds J (cat.tablets id) fun ts => ∀ t ∈ ts, t.Comparable

/-- The invariant holds of the world behind the cache, and the rows of all tablets that are known
can be compared. -/
structure Cached.Comparable (J : ω → Prop) (x : Cached ω) : Prop where
  backing : J x.backing
  known : ∀ entry ∈ x.known.entries, ∀ t ∈ entry.2, t.Comparable

namespace Locator

variable {J : ω → Prop} {Q : α → Prop} {cat : Catalog ω}

/-- What upholds an invariant of the world does so behind a cache, which it does not touch. -/
theorem upholds_behind {effect : Effect ω α} (h : Effect.Upholds J effect Q) :
    Effect.Upholds (Cached.Comparable J) (behind effect) Q := by
  intro s hI
  unfold behind
  rw [Effect.outcome_within]
  obtain ⟨kept, value⟩ := h ⟨s.world.backing, s.notes⟩ hI.backing
  exact ⟨⟨kept, hI.known⟩, value⟩

/-- The tablets that a catalog has of a table can be compared, if the table is there. That it is not
there is caught, and no tablets are handed on then. -/
theorem upholds_current? (h : cat.Comparable J) (id : TableId) :
    Effect.Upholds J (current? cat id) fun found =>
      ∀ ts, found = some ts → ∀ t ∈ ts, t.Comparable := by
  refine Upholds.tryCatch ((h.tablets id).bind fun ts hts => .pure ?_) fun f => ?_
  · rintro _ ⟨⟩
    exact hts
  · -- a table that is not there has no tablets, and any other failure stays
    split
    · exact .pure nofun
    · exact .throw _

/-- Remembering tablets that can be compared leaves the cache with no others. What is pushed out to
make room does not matter. -/
theorem upholds_keep (id : TableId) {found : Option (List Tablet)}
    (h : ∀ ts, found = some ts → ∀ t ∈ ts, t.Comparable) :
    Effect.Upholds (Cached.Comparable J) (keep id found) fun ts => ∀ t ∈ ts, t.Comparable := by
  cases found with
  | none => exact .pure nofun
  | some ts =>
    intro s hI
    rw [outcome_keep]
    cases inserted : s.world.known.insert id ts with
    | error f => exact ⟨hI, nofun⟩
    | ok known =>
      refine ⟨⟨hI.backing, fun entry he => ?_⟩, ?_⟩
      · -- an entry of the new cache is the one that was put in, or one of the old cache
        rcases Lru.mem_of_insert inserted entry he with rfl | he
        · exact h ts rfl
        · exact hI.known entry he
      · rintro _ ⟨⟩
        exact h ts rfl

/-- The tablets that are remembered can be compared, and so can those that the catalog has. One of
the two is what is used. -/
theorem upholds_tablets (h : cat.Comparable J) (id : TableId) :
    Effect.Upholds (Cached.Comparable J) (tablets cat id) fun ts => ∀ t ∈ ts, t.Comparable := by
  cases scalar : id.isScalar with
  | false =>
    unfold tablets
    rw [scalar]
    exact .throw_bind _
  | true =>
    intro s hI
    rw [outcome_tablets cat scalar]
    cases found : s.world.known.find? id with
    | none =>
      exact ((upholds_behind (upholds_current? h id)).bind fun _ => upholds_keep id) s hI
    -- the tablets were remembered earlier, so they are some that can be compared
    | some entry =>
      obtain ⟨⟨k, -, hmem⟩, entries⟩ := Lru.mem_of_find? found
      have rows := hI.known _ hmem
      refine ⟨⟨hI.backing, fun entry he => ?_⟩, ?_⟩
      · rcases entries entry he with rfl | he
        · exact rows
        · exact hI.known entry he
      · rintro _ ⟨⟩
        exact rows

/-- Located ranges are assigned to tablets that can be compared, and are ranges that can be told. -/
theorem upholds_resolve (h : cat.Comparable J) (id : TableId) {ranges : List KeyRange}
    (told : ∀ r ∈ ranges, r.Told) :
    Effect.Upholds (Cached.Comparable J) ((cached cat).resolve id ranges) fun l =>
      l.binning.Comparable := by
  refine (upholds_tablets h id).bind fun ts rows => ?_
  refine (Effect.upholds_ofResult _).bind fun located hlocated => ?_
  -- whether a note is left or not
  have value : located.binning.Comparable := by
    rw [Located.ofTablets_eq_ok hlocated]
    exact Binning.comparable_spread rows fun r hr => told r (List.mem_of_mem_filter hr)
  cases located.isComplete with
  | true => exact .pure value
  | false => exact (Effect.upholds_note _).bind fun _ _ => .pure value

/-- Forgetting the tablets of a table leaves the others as they are, so what is still remembered can
be compared as before. -/
theorem upholds_invalidate (cat : Catalog ω) (id : TableId) :
    Effect.Upholds (Cached.Comparable J) ((cached cat).invalidate id) fun _ => True := by
  cases scalar : id.isScalar with
  | false =>
    simp only [cached, scalar]
    exact .throw_bind _
  | true =>
    simp only [cached, scalar]
    refine Effect.upholds_world.bind fun world hworld => Effect.upholds_setWorld ⟨hworld.1, ?_⟩
    exact fun entry he => hworld.2 entry ((Ledger.erase_sublist _ _).subset he)

end Locator

/-- Ranges of an offline table are assigned to tablets that can be compared, if they are assigned at
all. -/
theorem Offline.upholds_bin {J : ω → Prop} {cat : Catalog ω} (h : cat.Comparable J) (id : TableId)
    {ranges : List KeyRange} (told : ∀ r ∈ ranges, r.Told) :
    Effect.Upholds J (bin cat id ranges) fun found => ∀ b, found = some b → b.Comparable := by
  unfold bin
  refine (h.tableState id).bind fun state _ => ?_
  by_cases offline : state = .offline
  · rw [if_neg (not_not.mpr offline)]
    refine (h.tablets id).bind fun ts rows => ?_
    -- the note about an obstacle is no change of the world
    cases made : ofTablets ts ranges with
    | ok binning =>
      refine .pure ?_
      rintro _ ⟨⟩
      rw [(ofTablets_eq_ok made).2]
      exact Binning.comparable_spread rows told
    | error setback =>
      cases setback with
      | failed why => exact .throw why
      | obstacle why => exact (Effect.upholds_note _).bind fun _ _ => .pure nofun
  · rw [if_pos offline]
    exact .throw_bind _

/-- A backend over a catalog that hands out rows that can be compared. Only the lookup of host names
is not told by the catalog, and has to keep the invariant itself. -/
theorem Collaborators.comparable_ofCatalog {c : Collaborators (Cached ω)} {kind : BackendKind}
    {cat : Catalog ω} {J : ω → Prop} (hc : c.backend = .ofCatalog kind cat) (h : cat.Comparable J)
    (canonical : ∀ host, Effect.Upholds (Cached.Comparable J) (c.canonical host) fun _ => True) :
    c.Comparable (Cached.Comparable J) where
  canonical := canonical
  tableId name := by
    rw [hc]
    exact Locator.upholds_behind (h.tableId name)
  resolve id ranges told := by
    rw [hc]
    exact Locator.upholds_resolve h id told
  invalidate id := by
    rw [hc]
    exact Locator.upholds_invalidate cat id
  tableExists id := by
    rw [hc]
    exact Locator.upholds_behind (h.tableExists id)
  tableState id := by
    rw [hc]
    exact Locator.upholds_behind (h.tableState id)
  binOffline id ranges told := by
    rw [hc]
    exact Locator.upholds_behind (Offline.upholds_bin h id told)

/-! ## What is made can be compared -/

/-- An extent that could be made has rows of which it can be told which one comes first: making it
has compared them. -/
theorem Extent.told_of_make {id : TableId} {prev last : Option RowKey} {e : Extent}
    (h : make id prev last = .ok e) : e.rows.Told := by
  unfold make at h
  split at h
  · next both =>
    cases h
    have told := both.1
    cases prev <;> cases last <;> exact told
  · split at h <;> cases h

/-- A tablet that was read from its record has an extent that could be made, and to make one its
rows are compared. -/
theorem Tablet.comparable_of_ofJson {v : Json} {t : Tablet} (h : ofJson v = .ok t) :
    t.Comparable := by
  obtain ⟨e, read, h⟩ := Result.bind_eq_ok.mp h
  obtain ⟨location, -, h⟩ := Result.bind_eq_ok.mp h
  obtain ⟨lastLocation, -, h⟩ := Result.bind_eq_ok.mp h
  cases h
  obtain ⟨id, -, read⟩ := Result.bind_eq_ok.mp read
  obtain ⟨prevRecord, -, read⟩ := Result.bind_eq_ok.mp read
  obtain ⟨prev, -, read⟩ := Result.bind_eq_ok.mp read
  obtain ⟨lastRecord, -, read⟩ := Result.bind_eq_ok.mp read
  obtain ⟨last, -, read⟩ := Result.bind_eq_ok.mp read
  exact Extent.told_of_make read

/-! ## The catalog of a service -/

/-- What a response tells was read out of a document: there is no other way to a value, and what
cannot be read is a failure. -/
theorem Response.exists_of_value {r : Response} {read : Json → Result α} {a : α}
    (h : r.value read = .ok a) : ∃ v, read v = .ok a := by
  unfold value at h
  by_cases failed : (!r.isOk) = true
  · rw [if_pos failed] at h
    obtain ⟨_, -, h⟩ := Result.bind_eq_ok.mp h
    cases h
  · rw [if_neg failed] at h
    by_cases empty : r.body = ""
    · rw [if_pos empty] at h
      cases h
    · rw [if_neg empty] at h
      obtain ⟨v, -, h⟩ := Result.bind_eq_ok.mp h
      exact ⟨v, h⟩

/-- What was read, and is not missing, is what the reader made of the value. -/
theorem Json.eq_ok_of_orNull {read : Json → Result α} {v : Json} {a : α}
    (h : orNull read v = .ok (some a)) : read v = .ok a := by
  unfold orNull at h
  split at h
  · cases h
  · obtain ⟨a', hread, e⟩ := Result.bind_eq_ok.mp h
    cases e
    exact hread

/-- Each tablet of a reply that is not missing was read from its record. A reply may have null in
the place of a tablet, which fails when tablets are made of it. -/
theorem TabletsReply.comparable_of_ofJson {v : Json} {reply : TabletsReply}
    (h : ofJson v = .ok reply) {sent : List (Option Tablet)} (hsent : reply.tablets = some sent)
    {t : Tablet} (ht : some t ∈ sent) : t.Comparable := by
  obtain ⟨member, -, h⟩ := Result.bind_eq_ok.mp h
  obtain ⟨tablets, read, h⟩ := Result.bind_eq_ok.mp h
  cases h
  cases hsent
  obtain ⟨items, -, read⟩ := Result.bind_eq_ok.mp (Json.eq_ok_of_orNull read)
  obtain ⟨item, -, read⟩ := Result.exists_of_mapM_of_mem read ht
  exact Tablet.comparable_of_ofJson (Json.eq_ok_of_orNull read)

namespace ServiceClient

theorem upholds_true (x : Effect Line α) : Effect.Upholds (fun _ => True) x fun _ => True :=
  fun _ _ => ⟨trivial, fun _ _ => trivial⟩

/-- What is asked of a service is read out of a document. Nothing else is known of the answer,
because the service may send anything. -/
theorem upholds_get (c : ServiceClient) (read : Json → Result α) (path : Option String)
    (query : List (String × String)) :
    Effect.Upholds (fun _ => True) (c.get read path query) fun a => ∃ v, read v = .ok a := by
  unfold get
  refine (upholds_true _).bind fun url _ => Upholds.tryCatch ?_ fun f => .throw _
  refine (upholds_true _).bind fun response _ => ?_
  have told := Effect.upholds_ofResult (J := fun _ : Line => True) (response.value read)
  exact told.imp fun a => Response.exists_of_value

/-- Asking with another failure in place of one that says that nothing was found gives the values of
asking as such. -/
theorem upholds_foundOr (missing : Failure) {effect : Effect Line α} {Q : α → Prop}
    (h : Effect.Upholds (fun _ => True) effect Q) :
    Effect.Upholds (fun _ => True) (foundOr missing effect) Q := by
  have found : Effect.Upholds (fun _ => True) (found? effect) fun found =>
      ∀ a, found = some a → Q a := by
    intro s _
    refine ⟨trivial, fun found ended a ha => ?_⟩
    unfold found? at ended
    simp only [outcome_tryCatch, outcome_bind] at ended
    rcases hrun : outcome effect s with ⟨f | a', s'⟩
    · -- a failure gives none, or it stays
      rw [hrun, ha] at ended
      by_cases none : isNoSuchResource f = true
      · simp only [none, if_true] at ended
        cases ended
      · simp only [none] at ended
        cases ended
    · rw [hrun, ha] at ended
      cases ended
      exact (h s trivial).2 a (congrArg Prod.fst hrun)
  refine found.bind fun found hfound => ?_
  cases found with
  | some a => exact .pure (hfound a rfl)
  | none => exact .throw missing

/-- The tablets that are made of a reply have been sent in it. They are sorted, but none is
added. -/
theorem exists_of_mem_tabletsOf {reply : TabletsReply} {ts : List Tablet}
    (h : tabletsOf reply = .ok ts) {t : Tablet} (ht : t ∈ ts) :
    ∃ sent, reply.tablets = some sent ∧ some t ∈ sent := by
  obtain ⟨listed, read, h⟩ := Result.bind_eq_ok.mp h
  have ht := (Sorting.perm_of_sort? h).subset ht
  obtain ⟨item, hitem, read⟩ := Result.exists_of_mapM_of_mem read ht
  -- a reply without tablets has none to read
  cases hsent : reply.tablets with
  | none =>
    rw [hsent] at hitem
    cases hitem
  | some sent =>
    rw [hsent] at hitem
    cases item with
    | none => cases read
    | some t' =>
      cases read
      exact ⟨sent, rfl, hitem⟩

/-- The catalog of a service hands out rows that can be compared, whatever the service sends. So no
invariant of the service is needed. -/
theorem comparable_catalog (c : ServiceClient) : c.catalog.Comparable fun _ => True where
  tableId name := upholds_true _
  tableExists id := upholds_true _
  tableState id := upholds_true _
  tablets id := by
    refine (upholds_true _).bind fun segment _ => ?_
    refine (upholds_foundOr _ (upholds_get c _ _ _)).bind fun reply hreply => ?_
    obtain ⟨v, read⟩ := hreply
    have told := Effect.upholds_ofResult (J := fun _ : Line => True) (tabletsOf reply)
    refine told.imp fun ts listed t ht => ?_
    obtain ⟨sent, hsent, ht⟩ := exists_of_mem_tabletsOf listed ht
    exact TabletsReply.comparable_of_ofJson read hsent ht

end ServiceClient

/-! ## Registries -/

namespace Table

/-- The rows of the tablets can be compared, and so can those of the extents they are listed under.
-/
def Comparable (tablets : Ledger Extent Tablet) : Prop :=
  ∀ entry ∈ tablets, entry.1.rows.Told ∧ entry.2.Comparable

instance (tablets : Ledger Extent Tablet) : Decidable (Comparable tablets) :=
  inferInstanceAs (Decidable (∀ entry ∈ tablets, _))

/-- Putting a tablet under an extent, both with rows that can be told, keeps all of them such. -/
theorem comparable_put {tablets : Ledger Extent Tablet} (h : Comparable tablets) {e : Extent}
    {t : Tablet} (he : e.rows.Told) (ht : t.Comparable) : Comparable (tablets.put e t) := by
  intro entry hmem
  rcases Ledger.mem_alter hmem with hmem | rfl | ⟨_, -, hmem, put⟩
  · exact h entry hmem
  · exact ⟨he, ht⟩
  · exact ⟨(h _ hmem).1, by rwa [put]⟩

end Table

namespace Registry

/-- The rows of all tables can be compared. -/
def Comparable (r : Registry) : Prop := r.Each Table.Comparable

instance (r : Registry) : Decidable r.Comparable :=
  inferInstanceAs (Decidable (∀ entry ∈ r.tables, _))

/-- A tablet that is put in has rows that can be compared. -/
def Change.Comparable (change : Change) : Prop :=
  ∀ name t, change = .put name t → t.Comparable

/-- A registry hands out the tablets that its tables have, in another order. -/
theorem comparable_catalog : catalog.Comparable Comparable where
  tableId name := (Effect.upholds_ask _).any
  tableExists id := (Effect.upholds_ask _).any
  tableState id := (Effect.upholds_ask _).any
  tablets id := by
    refine (Effect.upholds_ask _).imp fun ts listed u hu => ?_
    obtain ⟨r, hr, listed⟩ := listed
    obtain ⟨t, ht, listed⟩ := Result.bind_eq_ok.mp listed
    obtain ⟨sorted, hsorted, e⟩ := Result.bind_eq_ok.mp listed
    cases e
    obtain ⟨entry, he, rfl⟩ := List.mem_map.mp hu
    exact (each_table hr ht entry ((Sorting.perm_of_sort? hsorted).subset he)).2

/-- The tablets of a new table have extents that could be made. -/
theorem comparable_chain {id : TableId} {points : List (Option RowKey)}
    {locations : List (Option Address)} {tablets : Ledger Extent Tablet}
    (h : chain id points locations = .ok tablets) : Table.Comparable tablets := by
  refine chain_induction (P := fun _ made => Table.Comparable made) h (List.forall_mem_nil _) ?_
  intro p places made e before he
  have rows := Extent.told_of_make he
  exact Table.comparable_put before rows rows

/-- That the rows of a table can be compared lasts: moving or releasing a tablet leaves its rows as
they are. -/
theorem lasting_comparable : Lasting Table.Comparable where
  begins h := by
    obtain ⟨locations, -, made⟩ := h.made
    exact comparable_chain made
  move location h found := by
    -- the extent that is given has the rows of the one that is there
    obtain ⟨_, same, he⟩ := Ledger.mem_of_get? found
    have rows := (h _ he).1
    rw [Extent.rows_eq_of_beq same] at rows
    exact Table.comparable_put h rows rows
  release h entry he := by
    obtain ⟨listed, hlisted, rfl⟩ := List.mem_map.mp he
    exact ⟨(h listed hlisted).1, (h listed hlisted).1⟩
  erase e h entry he := h entry ((Ledger.erase_sublist _ e).subset he)

/-- Carrying a change out keeps the rows such that they can be compared, also if it fails: what a
failed change leaves behind are no rows. -/
theorem upholds_carryOut {change : Change} (comparable : change.Comparable) :
    Effect.Upholds Comparable (carryOut change) fun _ => True := by
  unfold carryOut
  refine Effect.upholds_world.bind fun r hr => ?_
  -- whatever the change does, the registry that comes next is comparable, also behind a failure
  have after : (r.next change).Comparable := by
    refine lasting_comparable.each_transition hr (fun name t put _ tablets h => ?_)
      (transition_next r change)
    have rows := comparable name t put
    exact Table.comparable_put h rows rows
  unfold next at after
  cases applied : r.apply change with
  | ok r' =>
    rw [applied] at after
    exact Effect.upholds_setWorld after
  | error f =>
    rw [applied] at after
    exact (Effect.upholds_setWorld after).bind fun _ _ => .throw f

end Registry

end ScanPlanner
