import ScanPlanner.Proofs.Gapless
import ScanPlanner.Proofs.TableIds
import ScanPlanner.Proofs.TabletRecord

/-!
# Chains of tablets

The split points of a table divide the keys: between each two of them lies one tablet, one before
the first and one behind the last (`Registry.made_chain`). The tablets keep these bounds whatever
happens to them, unless one is put in from outside; only removing a tablet takes one away
(`Registry.Linked`). So the tablets of a table are a partition of the keys (`Tablet.Partition`,
`Registry.partition_of_history`), and what is left of them after some were removed is still in order
and without an overlap. -/

namespace ScanPlanner

variable {id : TableId} {ks : List RowKey} {locations : List (Option Address)}
  {tablets : Ledger Extent Tablet}

/-- A key that is not there comes last. -/
theorem Ledger.put_eq_append {κ ν : Type} [BEq κ] {entries : Ledger κ ν} {key : κ}
    (fresh : ∀ k ∈ entries.keys, (k == key) = false) (v : ν) :
    entries.put key v = entries ++ [(key, v)] := by
  unfold put
  induction entries with
  | nil => rfl
  | cons entry entries ih =>
    obtain ⟨head, rest⟩ := List.forall_mem_cons.mp fresh
    rw [alter, if_neg (by rw [head]; exact Bool.false_ne_true), ih rest, List.cons_append]

/-- The bounds of an extent. -/
def Extent.bounds (e : Extent) : Registry.Bounds := (e.prev, e.last)

/-- An extent behind another one is not equal to it: equal extents have the same rows, and an extent
does not lie behind its own. -/
theorem Extent.not_beq_of_behind {e e' : Extent} (h : Registry.Behind e.bounds e'.bounds) :
    (e == e') = false := by
  by_contra same
  rw [Bool.not_eq_false] at same
  have equal : e.identity = e'.identity := of_decide_eq_true same
  simp only [identity, Prod.mk.injEq] at equal
  unfold Registry.Behind bounds at h
  rw [equal.2.2] at h
  exact absurd e'.ordered (not_lt.mpr h)

namespace Registry

/-! ## The bounds that split points make -/

theorem head?_chainBounds (prev : Option RowKey) (points : List (Option RowKey)) :
    (chainBounds prev points).head?.map Prod.fst = some prev := by
  cases points <;> rfl

/-- The last of the bounds has no end. -/
theorem getLast?_chainBounds (prev : Option RowKey) (points : List (Option RowKey)) :
    (chainBounds prev points).getLast?.map Prod.snd = some none := by
  induction points generalizing prev with
  | nil => rfl
  | cons p points ih =>
    have ne : chainBounds p points ≠ [] := by cases points <;> exact nofun
    rw [chainBounds, List.getLast?_cons_of_ne_nil ne, ih]

/-- Each of the bounds begin where the ones before them end. This holds of any split points, in
order or not. -/
theorem isChain_chainBounds (prev : Option RowKey) (ks : List RowKey) :
    (chainBounds prev (ks.map some)).IsChain fun b b' => b.2.isSome = true ∧ b'.1 = b.2 := by
  induction ks generalizing prev with
  | nil => exact .singleton _
  | cons k ks ih =>
    rw [List.map_cons, chainBounds]
    have rest := ih (some k)
    cases ks with
    | nil => exact .cons_cons ⟨rfl, rfl⟩ rest
    | cons l ks => exact .cons_cons ⟨rfl, rfl⟩ rest

/-- Each cut behind the first bound lies between some of the bounds, so tablets that are made for
them leave no gap. -/
theorem exists_mem_chainBounds {prev : Option RowKey} {c : Cut} (lo : Cut.behind prev ≤ c)
    (hi : c < .top) (ks : List RowKey) :
    ∃ b ∈ chainBounds prev (ks.map some), Cut.behind b.1 ≤ c ∧ c < Cut.upTo b.2 := by
  induction ks generalizing prev with
  | nil => exact ⟨(prev, none), List.mem_singleton_self _, lo, hi⟩
  | cons k ks ih =>
    rcases lt_or_ge c (.after k) with lt | ge
    · exact ⟨(prev, some k), List.mem_cons_self, lo, lt⟩
    · have behind : Cut.behind (some k) ≤ c := ge
      obtain ⟨b, hb, has⟩ := ih behind
      exact ⟨b, List.mem_cons_of_mem _ hb, has⟩

/-! ## New tables -/

/-- The entry of a tablet that was made with the given bounds at the given place. A tablet of a new
table was hosted last where it is hosted now. -/
structure Made (id : TableId) (p : Bounds × Option Address) (entry : Extent × Tablet) : Prop where
  id : entry.1.tableId = id
  bounds : entry.1.bounds = p.1
  tablet : entry.2 = ⟨entry.1, p.2, p.2⟩

/-- One tablet is made for each of the bounds. The order of the split points is needed: with equal
bounds a tablet would take the place of the one before it. -/
theorem made_chain (sorted : ks.Pairwise (· < ·))
    (h : chain id (ks.map some) locations = .ok tablets) :
    List.Forall₂ (Made id) ((chainBounds none (ks.map some)).zip locations) tablets := by
  have order := pairwise_fst_zip (pairwise_behind_chainBounds sorted none) locations
  generalize places : (chainBounds none (ks.map some)).zip locations = all at order
  -- the tablets made so far have the first places, and lie before all that is still to be made
  have made := chain_induction (P := fun rest made =>
    rest.Pairwise (fun p q => Behind p.1 q.1) ∧
      (∀ e ∈ made.keys, ∀ p ∈ rest, Behind e.bounds p.1) ∧
      ∃ first, all = first ++ rest ∧ List.Forall₂ (Made id) first made) h
    ⟨places ▸ order, fun _ he => (List.not_mem_nil he).elim, [], places ▸ rfl, .nil⟩ ?_
  · obtain ⟨-, -, first, rfl, made⟩ := made
    rwa [List.append_nil]
  · rintro p rest made e ⟨apart, before, first, rfl, done⟩ he
    obtain ⟨next, apart⟩ := List.pairwise_cons.mp apart
    obtain ⟨own, hprev, hlast⟩ := make_eq_ok he
    have bounds : e.bounds = p.1 := Prod.ext hprev hlast
    have fresh : ∀ e' ∈ Ledger.keys made, (e' == e) = false := fun e' he' =>
      Extent.not_beq_of_behind (bounds ▸ before e' he' p List.mem_cons_self)
    rw [Ledger.put_eq_append fresh]
    refine ⟨apart, fun e' he' q hq => ?_, first ++ [p], (List.append_cons _ _ _), ?_⟩
    · unfold Ledger.keys at he'
      rw [List.map_append, List.mem_append] at he'
      rcases he' with he' | he'
      · exact before e' he' q (List.mem_cons_of_mem _ hq)
      · rw [List.mem_singleton.mp he', bounds]
        exact next q hq
    · exact List.rel_append done (.cons ⟨own, bounds, rfl⟩ .nil)

end Registry

/-! ## Tablets that stay a chain -/

/-- The places that are known of the tablet are addresses. Of a place that cannot be looked up there
is no bin, so that locating the tablet would fail. -/
def Tablet.Addressed (t : Tablet) : Prop :=
  ∀ a, t.location = some a ∨ t.lastLocation = some a → a.isScalar = true

/-- The tablets of a table with the given split points, or what is left of them: each is listed
under its extent, and the extents have their bounds, in order, from the split points. -/
structure Table.Linked (id : TableId) (ks : List RowKey) (tablets : Ledger Extent Tablet) :
    Prop where
  ids : ∀ e ∈ tablets.keys, e.tableId = id
  bounds : (tablets.keys.map Extent.bounds).Sublist (Registry.chainBounds none (ks.map some))
  filed : Filed tablets
  addressed : ∀ entry ∈ tablets, entry.2.Addressed

/-- The places given for the tablets of a new table are addresses, if any are given. -/
def Places.Addresses (places : Places) : Prop :=
  ∀ locations, places = .listed locations → ∀ a, some a ∈ locations → a.isScalar = true

/-- The places of the tablets are among those that were given. Without places, or with places that
have names, no tablet has any. -/
theorem Places.Addresses.isScalar {places : Places} (h : places.Addresses) {count : Nat}
    (located : places.forTablets count = .ok locations) {a : Address} (ha : some a ∈ locations) :
    a.isScalar = true := by
  -- only listed places have addresses, and these were asked for when they were given
  cases places with
  | nowhere =>
    cases located
    cases List.eq_of_mem_replicate ha
  | listed places =>
    rw [forTablets] at located
    split at located
    · cases located
      exact h _ rfl a ha
    · cases located
  | named present =>
    rw [forTablets] at located
    split at located <;> cases located
  | malformed => cases located

namespace Registry

/-- A change that leaves the bounds of all tablets as they are, or removes a tablet: none is put in,
and new tables are split at texts or numbers. Places are addresses. -/
def Change.Tame : Change → Prop
  | .create _ points places _ =>
    (∀ p ∈ points, ∃ k : RowKey, p = some k ∧ k.kind?.isSome = true) ∧ places.Addresses
  | .setLocation _ _ location => ∀ a, location = some a → a.isScalar = true
  | .put _ _ => False
  | _ => True

/-- A change removes a tablet. -/
def Change.isRemove : Change → Bool
  | .remove _ _ => true
  | _ => false

/-- The tablets of a chain have the bounds that they were made for. -/
theorem map_bounds_of_made {pairs : List (Bounds × Option Address)}
    (made : List.Forall₂ (Made id) pairs tablets) :
    tablets.keys.map Extent.bounds = pairs.map Prod.fst := by
  unfold Ledger.keys
  induction made with
  | nil => rfl
  | cons first _ ih => rw [List.map_cons, List.map_cons, List.map_cons, ih, first.bounds]

/-- Each tablet of a chain was made for some bounds, and what is known of it is read off those
bounds and its place. -/
theorem exists_made {pairs : List (Bounds × Option Address)}
    (made : List.Forall₂ (Made id) pairs tablets) {entry : Extent × Tablet} (he : entry ∈ tablets) :
    ∃ p ∈ pairs, Made id p entry := by
  induction made with
  | nil => cases he
  | cons first _ ih =>
    rcases List.mem_cons.mp he with rfl | he
    · exact ⟨_, List.mem_cons_self, first⟩
    · obtain ⟨p, hp, m⟩ := ih he
      exact ⟨p, List.mem_cons_of_mem _ hp, m⟩

/-- The tablets of a new table are linked, and there is one more than split points. Their places are
addresses if those that were given are. -/
theorem linked_chain {places : Places} (sorted : ks.Pairwise (· < ·))
    (located : places.forTablets (ks.length + 1) = .ok locations) (addresses : places.Addresses)
    (h : chain id (ks.map some) locations = .ok tablets) :
    Table.Linked id ks tablets ∧ tablets.length = ks.length + 1 := by
  -- there are as many places as bounds, so none of them is left over
  have count := Places.length_forTablets located
  have made := made_chain sorted h
  have length : (chainBounds none (ks.map some)).length = locations.length := by
    rw [length_chainBounds, List.length_map, count]
  refine ⟨⟨fun e he => ?_, ?_, fun entry he => ?_, fun entry he a ha => ?_⟩, ?_⟩
  · obtain ⟨entry, hmem, rfl⟩ := List.mem_map.mp he
    obtain ⟨p, -, m⟩ := exists_made made hmem
    exact m.id
  · rw [map_bounds_of_made made, List.map_fst_zip length.le]
  · obtain ⟨p, -, m⟩ := exists_made made he
    rw [m.tablet]
    exact BEq.rfl
  · obtain ⟨p, hp, m⟩ := exists_made made he
    rw [m.tablet, or_self_iff] at ha
    exact addresses.isScalar located (ha ▸ (List.of_mem_zip hp).2)
  · rw [← made.length_eq, List.length_zip, length, Nat.min_self, count]

/-- A tablet that moves to an address that can be looked up has only such addresses, also the one
that it leaves. -/
theorem addressed_moved {t : Tablet} (h : t.Addressed) (e : Extent) {location : Option Address}
    (scalar : ∀ a, location = some a → a.isScalar = true) :
    (Table.moved e t location).Addressed := by
  rintro a (here | last)
  · exact scalar a here
  · -- the last place is the place before, if there was one
    change (t.location <|> t.lastLocation) = some a at last
    cases hl : t.location with
    | none =>
      rw [hl] at last
      exact h a (.inr last)
    | some b =>
      rw [hl] at last
      cases last
      exact h _ (.inl hl)

end Registry

/-- What a change makes of a table stays linked, and has as many tablets unless one is removed.
Putting a tablet in from outside is excluded, as its bounds may be any. -/
theorem Table.Transition.linked {t t' : Table} {change : Registry.Change}
    (h : t.Transition change t') (tame : change.Tame)
    (linked : Table.Linked id ks t.tablets) :
    Table.Linked id ks t'.tablets ∧
      (change.isRemove = false → t'.tablets.length = t.tablets.length) := by
  -- one case for each thing that can be done with a table; only putting a tablet in could break the
  -- links
  cases h with
  | @moved name ref location e tablet found =>
    have keys := Ledger.keys_put_of_get? found (Table.moved e tablet location)
    have length := congrArg List.length keys
    unfold Ledger.keys at length
    rw [List.length_map, List.length_map] at length
    refine ⟨⟨keys ▸ linked.ids, keys ▸ linked.bounds, Table.filed_put linked.filed rfl, ?_⟩,
      fun _ => length⟩
    obtain ⟨k, -, hmem⟩ := Ledger.mem_of_get? found
    have moved := Registry.addressed_moved (linked.addressed _ hmem) e tame
    intro entry he
    rcases Ledger.mem_alter he with he | rfl | ⟨_, -, -, e'⟩
    · exact linked.addressed entry he
    · exact moved
    · rw [e']
      exact moved
  | @inState name state =>
    cases state with
    | online => exact ⟨⟨linked.ids, linked.bounds, linked.filed, linked.addressed⟩, fun _ => rfl⟩
    | offline =>
      have keys := Table.keys_release t.tablets
      refine ⟨⟨keys ▸ linked.ids, keys ▸ linked.bounds, Table.filed_release _, ?_⟩,
        fun _ => List.length_map _⟩
      intro entry he
      obtain ⟨⟨e, tablet⟩, hmem, rfl⟩ := List.mem_map.mp he
      exact Registry.addressed_moved (linked.addressed _ hmem) e nofun
  | @removed name ref e tablet found =>
    have less := Ledger.erase_sublist t.tablets e
    have keys := less.map Prod.fst
    refine ⟨⟨fun e' he' => linked.ids e' (keys.subset he'),
      (keys.map Extent.bounds).trans linked.bounds, fun entry he => linked.filed entry
        (less.subset he), fun entry he => linked.addressed entry (less.subset he)⟩, nofun⟩
  | put key => exact tame.elim

end ScanPlanner
