import Mathlib.Data.List.Chain
import ScanPlanner.Proofs.Transition

/-!
# Histories of a registry

What is true of the tablets of new tables and is kept by each change is true after any history,
carried out from an empty registry (`Registry.each_of_history`). Changes that fail are part of a
history. Each tablet is listed under its own extent (`Registry.filed_of_history`), which can be
looked up (`Registry.keyed_of_history`). And a table begins as a chain of tablets, to which only
putting a tablet in adds one: without that change, no two tablets of a table have a row in common
(`Registry.apart_of_history`). -/

namespace ScanPlanner

/-! ## Keys of a ledger -/

namespace Ledger

variable {κ ν : Type} [BEq κ]

/-- Putting a value under a key leaves the keys as they are if one of them equals it, and adds it as
the last one otherwise. -/
theorem keys_put (entries : Ledger κ ν) (key : κ) (v : ν) :
    (entries.put key v).keys = entries.keys ∨
      (∀ k ∈ entries.keys, (k == key) = false) ∧
        (entries.put key v).keys = entries.keys ++ [key] := by
  unfold put keys
  induction entries with
  | nil => simp [alter]
  | cons entry rest ih =>
    obtain ⟨k, w⟩ := entry
    by_cases hk : k == key
    · left
      simp [alter, hk]
    · simp only [alter, hk, Bool.false_eq_true, if_false, List.map_cons]
      -- the first entry has another key, so the rest decides
      rcases ih with ih | ⟨fresh, ih⟩
      · left
        rw [ih]
      · right
        refine ⟨?_, by rw [ih, List.cons_append]⟩
        intro k' hk'
        rcases List.mem_cons.mp hk' with rfl | hk'
        · simpa using hk
        · exact fresh k' hk'

/-- A key that can be found is not added once more. The one that is there stays, even if another one
was given that equals it. -/
theorem keys_put_of_get? {entries : Ledger κ ν} {key : κ} {w : ν}
    (h : entries.get? key = some w) (v : ν) : (entries.put key v).keys = entries.keys := by
  rcases keys_put entries key v with same | ⟨fresh, -⟩
  · exact same
  · obtain ⟨k, hk, hmem⟩ := mem_of_get? h
    have := fresh k (List.mem_map_of_mem hmem)
    rw [hk] at this
    cases this

end Ledger

/-! ## Tables -/

namespace Table

/-- Each tablet is listed under its extent, or under one that is equal to it. -/
def Filed (tablets : Ledger Extent Tablet) : Prop :=
  ∀ entry ∈ tablets, (entry.1 == entry.2.extent) = true

/-- A tablet that is put under its own extent may take the place of one with an equal extent. The
key of that one stays, and equals the new extent too. -/
theorem filed_put {tablets : Ledger Extent Tablet} (h : Filed tablets) {e : Extent} {t : Tablet}
    (ht : t.extent = e) : Filed (tablets.put e t) := by
  intro entry he
  rcases Ledger.mem_alter he with he | rfl | ⟨_, same, -, e'⟩
  · exact h entry he
  · rw [ht]
    exact BEq.rfl
  · rw [e', ht]
    exact same

/-- Releasing the tablets leaves each one under its own extent. -/
theorem filed_release (tablets : Ledger Extent Tablet) :
    Filed (tablets.map fun (e, t) => (e, moved e t none)) := by
  intro entry he
  obtain ⟨_, -, rfl⟩ := List.mem_map.mp he
  exact BEq.rfl

/-- When its tablets are released, a table keeps their extents. -/
theorem keys_release (tablets : Ledger Extent Tablet) :
    Ledger.keys (tablets.map fun (e, t) => (e, moved e t none)) = tablets.keys := by
  unfold Ledger.keys
  rw [List.map_map]
  rfl

/-- The extents of the tablets are distinct and can be looked up. This holds of every table of every
history, whatever tablets are put in. -/
structure Keyed (tablets : Ledger Extent Tablet) : Prop where
  distinct : tablets.Distinct
  keys : ∀ e ∈ tablets.keys, e.isKey = true

theorem keyed_nil : Keyed [] := ⟨Ledger.distinct_nil, fun _ he => (List.not_mem_nil he).elim⟩

/-- Putting a tablet under an extent that can be looked up keeps the extents distinct, as an equal
one is found and its entry is used. -/
theorem Keyed.put {tablets : Ledger Extent Tablet} (h : Keyed tablets) {e : Extent}
    (key : e.isKey = true) (tablet : Tablet) : Keyed (Ledger.put tablets e tablet) := by
  refine ⟨Ledger.distinct_put h.distinct _ _, ?_⟩
  rcases Ledger.keys_put tablets e tablet with same | ⟨-, more⟩
  · rw [same]
    exact h.keys
  · rw [more]
    intro e' he'
    rcases List.mem_append.mp he' with he' | he'
    · exact h.keys e' he'
    · rw [List.mem_singleton.mp he']
      exact key

/-- No two tablets have a row in common, and each is listed under its extent. This is lost when a
tablet is put in that overlaps others. -/
structure Sound (tablets : Ledger Extent Tablet) : Prop where
  apart : tablets.keys.Pairwise fun e e' => KeyRange.Disjoint e.rows e'.rows
  filed : Filed tablets

theorem sound_nil : Sound [] := ⟨.nil, fun _ h => (List.not_mem_nil h).elim⟩

/-- The tablets of a sound table, in ascending order, have no row in common. Sorting moves tablets,
and having no row in common does not depend on the order. -/
theorem Sound.apart_sorted {t : Table} (h : Sound t.tablets) {tablets : List Tablet}
    (hs : t.sorted = .ok tablets) : Tablet.Apart tablets := by
  obtain ⟨entries, hentries, hs⟩ := Result.bind_eq_ok.mp hs
  cases hs
  have perm : entries.Perm t.tablets := Sorting.perm_of_sort? hentries
  -- under which extent a tablet is listed does not matter, since it has the same rows
  have listed : t.tablets.Pairwise fun x y =>
      KeyRange.Disjoint x.2.extent.rows y.2.extent.rows := by
    have apart := h.apart
    unfold Ledger.keys at apart
    rw [List.pairwise_map] at apart
    refine apart.imp_of_mem fun hx hy disjoint => ?_
    rw [← Extent.rows_eq_of_beq (h.filed _ hx), ← Extent.rows_eq_of_beq (h.filed _ hy)]
    exact disjoint
  unfold Tablet.Apart
  rw [List.pairwise_map]
  exact (List.Perm.pairwise_iff (fun h => KeyRange.Disjoint.symm h) perm).mpr listed

end Table

/-! ## New tables -/

/-- There are as many places as there are tablets. If none is given, each tablet has none. -/
theorem Places.length_forTablets {places : Places} {count : Nat}
    {locations : List (Option Address)} (h : places.forTablets count = .ok locations) :
    locations.length = count := by
  cases places with
  | nowhere =>
    cases h
    exact List.length_replicate
  | listed places =>
    rw [forTablets] at h
    split at h
    · next same =>
      cases h
      exact same
    · cases h
  | named present =>
    rw [forTablets] at h
    split at h <;> cases h
  | malformed => cases h

namespace Registry

/-- The bounds of one tablet: the row that it begins behind, and its last one. -/
abbrev Bounds := Option RowKey × Option RowKey

/-- Points divide a table into one tablet more than there are points. -/
theorem length_chainBounds (prev : Option RowKey) (points : List (Option RowKey)) :
    (chainBounds prev points).length = points.length + 1 := by
  induction points generalizing prev with
  | nil => rfl
  | cons p points ih => rw [chainBounds, List.length_cons, ih, List.length_cons]

/-- The second bounds begin where the first ones end, or behind that. It is said of cuts, where a
bound that is missing lies beyond all keys on its own side. -/
def Behind (b b' : Bounds) : Prop := Cut.upTo b.2 ≤ Cut.behind b'.1

/-- The second bounds are the same ones or lie behind the first ones. -/
def Clear (b b' : Bounds) : Prop := b = b' ∨ Behind b b'

/-- Points that a table can be split at: one that is missing, or keys in strict order. A list that
passes the check, and of which the tablets can be made, is of this form. -/
def InOrder (points : List (Option RowKey)) : Prop :=
  points = [none] ∨ ∃ ks : List RowKey, points = ks.map some ∧ ks.Pairwise (· < ·)

theorem inPlace_of_ascending {points : List (Option RowKey)} (h : ascending points = true) :
    inPlace points = true := by
  unfold ascending at h
  exact (Bool.and_eq_true_iff.mp h).2

/-- A point that is missing can only stand alone: beside another one it would have to be compared
with it, and it has no order. -/
theorem inPlace_cases {points : List (Option RowKey)} (h : inPlace points = true) :
    points = [none] ∨ ∃ ks : List RowKey, points = ks.map some := by
  -- two points in a row are both keys, so a missing one has no neighbour
  induction points with
  | nil => exact .inr ⟨[], rfl⟩
  | cons p rest ih =>
    cases rest with
    | nil =>
      cases p with
      | none => exact .inl rfl
      | some k => exact .inr ⟨[k], rfl⟩
    | cons q rest =>
      right
      cases p with
      | none => cases h
      | some k =>
        cases q with
        | none => cases h
        | some l =>
          rw [inPlace, Bool.and_eq_true] at h
          rcases ih h.2 with alone | ⟨ks, e⟩
          · cases alone
          · exact ⟨k :: ks, by rw [e, List.map_cons]⟩

/-- A tablet begins where the whole chain does, or behind one of the points. The rows at which
tablets begin are found among the points by this. -/
theorem fst_of_mem_chainBounds {prev : Option RowKey} {points : List (Option RowKey)} {b : Bounds}
    (h : b ∈ chainBounds prev points) : b.1 = prev ∨ b.1 ∈ points := by
  induction points generalizing prev with
  | nil =>
    rw [chainBounds, List.mem_singleton] at h
    rw [h]
    exact .inl rfl
  | cons p rest ih =>
    rw [chainBounds, List.mem_cons] at h
    rcases h with rfl | h
    · exact .inl rfl
    · rcases ih h with e | e
      · exact .inr (e ▸ List.mem_cons_self)
      · exact .inr (List.mem_cons_of_mem _ e)

/-- A tablet has no end, or ends with one of the points. -/
theorem snd_of_mem_chainBounds {prev : Option RowKey} {points : List (Option RowKey)} {b : Bounds}
    (h : b ∈ chainBounds prev points) : b.2 = none ∨ b.2 ∈ points := by
  induction points generalizing prev with
  | nil =>
    rw [chainBounds, List.mem_singleton] at h
    rw [h]
    exact .inl rfl
  | cons p points ih =>
    rw [chainBounds, List.mem_cons] at h
    rcases h with rfl | h
    · exact .inr List.mem_cons_self
    · exact (ih h).imp_right (List.mem_cons_of_mem _)

/-- The bounds of keys in strict order follow one another: each begins where an earlier one ends, or
behind that. -/
theorem pairwise_behind_chainBounds {ks : List RowKey} (sorted : ks.Pairwise (· < ·))
    (prev : Option RowKey) : (chainBounds prev (ks.map some)).Pairwise Behind := by
  induction ks generalizing prev with
  | nil => exact List.pairwise_singleton _ _
  | cons k ks ih =>
    obtain ⟨behind, rest⟩ := List.pairwise_cons.mp sorted
    rw [List.map_cons, chainBounds]
    refine List.pairwise_cons.mpr ⟨fun b hb => ?_, ih rest _⟩
    unfold Behind
    -- what follows the first tablet begins behind its last row, or behind a later point
    rcases fst_of_mem_chainBounds hb with e | e
    · rw [e]
      exact RowKey.lt_irrefl k
    · obtain ⟨l, hl, e⟩ := List.mem_map.mp e
      rw [← e]
      exact RowKey.lt_asymm (behind l hl)

/-- Points in order divide a table into tablets each of which is clear of all that follow it. -/
theorem pairwise_chainBounds {points : List (Option RowKey)} (h : InOrder points) :
    (chainBounds none points).Pairwise Clear := by
  rcases h with rfl | ⟨ks, rfl, sorted⟩
  · -- a point that is missing divides nothing: both bounds are the same
    exact List.pairwise_cons.mpr ⟨fun b hb => .inl (List.mem_singleton.mp hb).symm,
      List.pairwise_singleton _ _⟩
  · exact (pairwise_behind_chainBounds sorted none).imp Or.inr

/-- Extents whose bounds follow one another have no row in common. -/
theorem disjoint_rows {e e' : Extent} (behind : Behind (e.prev, e.last) (e'.prev, e'.last)) :
    KeyRange.Disjoint e.rows e'.rows := by
  rintro l ⟨hl, hl'⟩
  refine Span.not_holds_of_le ?_ hl hl'
  rw [Extent.hi_span_rows, Extent.lo_span_rows]
  exact behind

/-- The tablets made so far are sound and of one table, and each is clear of the bounds to come. It
is the invariant of the loop that makes the tablets of a new table. -/
structure Grown (id : TableId) (bounds : List Bounds) (tablets : Ledger Extent Tablet) : Prop where
  sound : Table.Sound tablets
  id : ∀ e ∈ tablets.keys, e.tableId = id
  clear : ∀ e ∈ tablets.keys, ∀ b ∈ bounds, Clear (e.prev, e.last) b

/-- An extent that could be made has the id and the bounds that it was made from. -/
theorem make_eq_ok {id : TableId} {prev last : Option RowKey} {e : Extent}
    (h : Extent.make id prev last = .ok e) : e.tableId = id ∧ e.prev = prev ∧ e.last = last := by
  unfold Extent.make at h
  split at h
  · cases h
    exact ⟨rfl, rfl, rfl⟩
  · split at h <;> cases h

/-- One tablet more keeps what has grown sound: its extent is one that is listed already, or all
extents that are listed end before it begins. -/
theorem grown_put {id : TableId} {b : Bounds} {bounds : List Bounds}
    {tablets : Ledger Extent Tablet} (h : Grown id (b :: bounds) tablets)
    (next : ∀ b' ∈ bounds, Clear b b') {e : Extent} (he : Extent.make id b.1 b.2 = .ok e)
    {t : Tablet} (ht : t.extent = e) : Grown id bounds (tablets.put e t) := by
  obtain ⟨own, hprev, hlast⟩ := make_eq_ok he
  have bounds_e : (e.prev, e.last) = b := Prod.ext hprev hlast
  have filed := Table.filed_put h.sound.filed ht
  rcases Ledger.keys_put tablets e t with same | ⟨fresh, more⟩
  · -- the same bounds once more: the tablet takes the place of the one that has them
    refine ⟨⟨by rw [same]; exact h.sound.apart, filed⟩, by rw [same]; exact h.id, ?_⟩
    rw [same]
    exact fun e' he' b' hb' => h.clear e' he' b' (List.mem_cons_of_mem _ hb')
  · -- no tablet has the same bounds, so all end before these begin
    have before : ∀ e' ∈ tablets.keys, KeyRange.Disjoint e'.rows e.rows := by
      intro e' he'
      rcases h.clear e' he' b List.mem_cons_self with same | behind
      · have equal : e'.identity = e.identity := by
          rw [← bounds_e, Prod.mk.injEq] at same
          unfold Extent.identity
          rw [h.id e' he', own, same.1, same.2]
        have equal : (e' == e) = true := decide_eq_true equal
        rw [fresh e' he'] at equal
        cases equal
      · exact disjoint_rows (bounds_e ▸ behind)
    refine ⟨⟨?_, filed⟩, ?_, ?_⟩
    · rw [more, List.pairwise_append]
      refine ⟨h.sound.apart, List.pairwise_singleton _ _, fun e' he' e'' he'' => ?_⟩
      rw [List.mem_singleton.mp he'']
      exact before e' he'
    · rw [more]
      intro e' he'
      rcases List.mem_append.mp he' with he' | he'
      · exact h.id e' he'
      · rw [List.mem_singleton.mp he']
        exact own
    · rw [more]
      intro e' he' b' hb'
      rcases List.mem_append.mp he' with he' | he'
      · exact h.clear e' he' b' (List.mem_cons_of_mem _ hb')
      · rw [List.mem_singleton.mp he', bounds_e]
        exact next b' hb'

/-- Tablets are made one after the other. What is true of the places to come and of no tablets, and
stays true with each tablet that is made, is true in the end of all that have been made. -/
theorem chain_induction {id : TableId} {points : List (Option RowKey)}
    {locations : List (Option Address)} {tablets : Ledger Extent Tablet}
    {P : List (Bounds × Option Address) → Ledger Extent Tablet → Prop}
    (h : chain id points locations = .ok tablets)
    (start : P ((chainBounds none points).zip locations) [])
    (step : ∀ {p places made e}, P (p :: places) made → Extent.make id p.1.1 p.1.2 = .ok e →
      P places (Ledger.put made e ⟨e, p.2, p.2⟩)) : P [] tablets := by
  unfold chain at h
  revert h start
  generalize (chainBounds none points).zip locations = places
  generalize ([] : Ledger Extent Tablet) = made
  intro h start
  -- induction on the places that are left, for any tablets that have been made
  induction places generalizing made with
  | nil =>
    cases h
    exact start
  | cons p places ih =>
    rw [List.foldlM_cons] at h
    obtain ⟨made', hmade, h⟩ := Result.bind_eq_ok.mp h
    obtain ⟨e, he, hmade⟩ := Result.bind_eq_ok.mp hmade
    cases hmade
    exact ih _ h (step start he)

/-- The extents of all bounds that have a place were made, because the first one that cannot be made
ends the chain with a failure. -/
theorem exists_make_of_chain {id : TableId} {points : List (Option RowKey)}
    {locations : List (Option Address)} {tablets : Ledger Extent Tablet}
    (h : chain id points locations = .ok tablets) {b : Bounds} {location : Option Address}
    (hb : (b, location) ∈ (chainBounds none points).zip locations) :
    ∃ e, Extent.make id b.1 b.2 = .ok e := by
  -- the bounds that are not still to come have had their extent made
  have made := chain_induction (P := fun rest _ =>
    (b, location) ∈ rest ∨ ∃ e, Extent.make id b.1 b.2 = .ok e) h (.inl hb) ?_
  · -- in the end none of them is still to come
    exact made.resolve_left List.not_mem_nil
  · rintro p rest _ e (hb | done) he
    · rcases List.mem_cons.mp hb with rfl | hb
      · exact .inr ⟨e, he⟩
      · exact .inl hb
    · exact .inr done

/-- Keys between which tablets lie are in strict order. The extents tell this, not the check of the
points, which a number without a place among others can pass. -/
theorem pairwise_lt_of_make {id : TableId} {ks : List RowKey} {prev : Option RowKey}
    (made : ∀ b ∈ chainBounds prev (ks.map some), ∃ e, Extent.make id b.1 b.2 = .ok e) :
    ks.Pairwise (· < ·) := by
  -- each extent between two points is in order, so neighbours are
  have adjacent : ks.IsChain (· < ·) := by
    induction ks generalizing prev with
    | nil => exact .nil
    | cons k ks ih =>
      obtain ⟨-, rest⟩ := List.forall_mem_cons.mp made
      cases ks with
      | nil => exact .singleton k
      | cons l ks =>
        obtain ⟨e, he⟩ := rest _ List.mem_cons_self
        obtain ⟨-, hprev, hlast⟩ := make_eq_ok he
        have ordered := e.ordered
        rw [hprev, hlast] at ordered
        exact .cons_cons ordered (ih rest)
  exact List.isChain_iff_pairwise.mp adjacent

/-- The points of a table that could be created are in order: of points that only pass as such, two
have no tablet between them. -/
theorem Begins.inOrder {r : Registry} {name : TableName} {points : List (Option RowKey)}
    {places : Places} {tablets : Ledger Extent Tablet} (h : r.Begins name points places tablets) :
    InOrder points := by
  refine (inPlace_cases (inPlace_of_ascending h.ascending)).imp_right fun ⟨ks, e⟩ => ⟨ks, e, ?_⟩
  subst e
  obtain ⟨locations, located, made⟩ := h.made
  -- there is a place for each of the bounds
  have count : (chainBounds none (ks.map some)).length ≤ locations.length := by
    rw [length_chainBounds, Places.length_forTablets located]
  refine @pairwise_lt_of_make (.text (toString r.nextId)) ks none fun b hb => ?_
  rw [← List.map_fst_zip count] at hb
  obtain ⟨p, hp, rfl⟩ := List.mem_map.mp hb
  exact exists_make_of_chain made hp

/-- What relates the bounds relates them also when each has a place. -/
theorem pairwise_fst_zip {R : Bounds → Bounds → Prop} {bounds : List Bounds}
    (h : bounds.Pairwise R) (locations : List (Option Address)) :
    (bounds.zip locations).Pairwise fun p q => R p.1 q.1 := by
  induction h generalizing locations with
  | nil => exact .nil
  | cons first _ ih =>
    cases locations with
    | nil => exact .nil
    | cons location locations =>
      exact .cons (fun q hq => first q.1 (List.of_mem_zip hq).1) (ih locations)

namespace Begins

variable {r : Registry} {name : TableName} {points : List (Option RowKey)} {places : Places}
  {tablets : Ledger Extent Tablet} (h : r.Begins name points places tablets)
include h

/-- The tablets of a new table are sound: their extents are distinct and have no row in common, and
each tablet has the extent that it is listed under. -/
theorem sound : Table.Sound tablets := by
  obtain ⟨locations, -, made⟩ := h.made
  let id : TableId := .text (toString r.nextId)
  have clear := pairwise_fst_zip (pairwise_chainBounds h.inOrder) locations
  have grown : Grown id (((chainBounds none points).zip locations).map Prod.fst) [] :=
    ⟨Table.sound_nil, fun _ he => (List.not_mem_nil he).elim,
      fun _ he => (List.not_mem_nil he).elim⟩
  have all := chain_induction (P := fun places made =>
    places.Pairwise (fun p q => Clear p.1 q.1) ∧ Grown id (places.map Prod.fst) made) made
    ⟨clear, grown⟩ fun before he => by
      obtain ⟨next, rest⟩ := List.pairwise_cons.mp before.1
      refine ⟨rest, grown_put before.2 (fun b hb => ?_) he rfl⟩
      obtain ⟨q, hq, rfl⟩ := List.mem_map.mp hb
      exact next q hq
  exact all.2.sound

/-- The extents of a new table can be looked up, since its id and its points can: the id is a text,
and the check refuses points with parts. -/
theorem keyed : Table.Keyed tablets := by
  obtain ⟨locations, -, made⟩ := h.made
  have scalar {k : Option RowKey} (hk : k = none ∨ k ∈ points) : k.all RowKey.isScalar = true := by
    rcases hk with rfl | hk
    · rfl
    · exact List.all_eq_true.mp h.keys k hk
  -- the bounds that are left are carried along, since they say where the rows come from
  have all := chain_induction (P := fun places made =>
    (∀ p ∈ places, p.1 ∈ chainBounds none points) ∧ Table.Keyed made) made
    ⟨fun p hp => (List.of_mem_zip hp).1, Table.keyed_nil⟩ fun {p _ _ e} before he => by
      obtain ⟨bound, rest⟩ := List.forall_mem_cons.mp before.1
      obtain ⟨own, hprev, hlast⟩ := make_eq_ok he
      have key : e.isKey = true := by
        unfold Extent.isKey
        rw [own, hprev, hlast, scalar (fst_of_mem_chainBounds bound),
          scalar (snd_of_mem_chainBounds bound)]
        rfl
      exact ⟨rest, before.2.put key _⟩
  exact all.2

end Begins

/-! ## Changes -/

/-- The tablets of each table have a property. -/
def Each (P : Ledger Extent Tablet → Prop) (r : Registry) : Prop :=
  ∀ entry ∈ r.tables, P entry.2.tablets

/-- A property that new tables have, and that tables keep as long as no tablet is put in. A property
like this holds of the tables of every history without such a change. -/
structure Lasting (P : Ledger Extent Tablet → Prop) : Prop where
  begins : ∀ {r : Registry} {name : TableName} {points : List (Option RowKey)} {places : Places}
    {tablets : Ledger Extent Tablet}, r.Begins name points places tablets → P tablets
  move : ∀ {tablets : Ledger Extent Tablet} {e : Extent} {t : Tablet} (location : Option Address),
    P tablets → tablets.get? e = some t → P (tablets.put e (Table.moved e t location))
  release : ∀ {tablets : Ledger Extent Tablet}, P tablets →
    P (tablets.map fun (e, t) => (e, Table.moved e t none))
  erase : ∀ {tablets : Ledger Extent Tablet} (e : Extent), P tablets → P (tablets.erase e)

/-- Putting a tablet in keeps the property, if its extent can be looked up. -/
def KeptByPut (P : Ledger Extent Tablet → Prop) : Prop :=
  ∀ (tablets : Ledger Extent Tablet) (t : Tablet), t.extent.isKey = true → P tablets →
    P (tablets.put t.extent t)

/-- A change puts a tablet in. -/
def Change.isPut : Change → Bool
  | .put _ _ => true
  | _ => false

section Each

variable {P : Ledger Extent Tablet → Prop} {r r' : Registry}

/-- Putting a table with the property under an id leaves all tables with it, whether the id is a new
one or another table gives way. -/
theorem each_put (h : r.Each P) {id : TableId} {t : Table} (ht : P t.tablets) :
    ∀ entry ∈ r.tables.put id t, P entry.2.tablets := by
  intro entry he
  rcases Ledger.mem_alter he with he | rfl | ⟨_, -, -, e⟩
  · exact h entry he
  · exact ht
  · rw [e]
    exact ht

theorem each_table (h : r.Each P) {id : TableId} {t : Table} (ht : r.table id = .ok t) :
    P t.tablets := by
  obtain ⟨k, -, hmem⟩ := Ledger.mem_of_get? (get?_of_table ht).2
  exact h _ hmem

/-- Each change keeps the property, one that puts a tablet in if putting that one does. So only this
one change has to be excluded where a property does not bear it. -/
theorem Lasting.each_transition (lasting : Lasting P) (h : r.Each P) {change : Change}
    (hp : ∀ name t, change = .put name t → t.extent.isKey = true → ∀ tablets, P tablets →
      P (tablets.put t.extent t))
    (ht : r.Transition change r') : r'.Each P := by
  -- a table is new, or it is changed, or it is one from before
  cases ht with
  | created begins =>
    exact each_put h (lasting.begins begins)
  | updated subject leads there becomes =>
    obtain ⟨k, -, hmem⟩ := Ledger.mem_of_get? there
    refine each_put h ?_
    cases becomes with
    | moved found => exact lasting.move _ (h _ hmem) found
    | @inState _ state =>
      cases state with
      | online => exact h _ hmem
      | offline => exact lasting.release (h _ hmem)
    | removed found => exact lasting.erase _ (h _ hmem)
    | put key => exact hp _ _ rfl key _ (h _ hmem)
  | renamed leads scalar => exact h
  | @deleted _ id leads =>
    exact fun entry he => h entry ((Ledger.erase_sublist r.tables id).subset he)
  | numberLost => exact h
  | nameLost leads bad => exact h
  | kept unled => exact h

end Each

/-! ## Histories -/

/-- After any history the tablets of each table have a property that lasts. -/
theorem each_of_history {P : Ledger Extent Tablet → Prop} (lasting : Lasting P)
    {changes : List Change} (hp : ∀ change ∈ changes, change.isPut = true → KeptByPut P) :
    (Schedule.worldAfter empty (changes.map carryOut)).Each P := by
  refine run_keeps (fun change hmem _ _ h ht => lasting.each_transition h ?_ ht) ?_
  · rintro name t rfl key tablets
    exact hp _ hmem rfl tablets t key
  · exact fun _ h => (List.not_mem_nil h).elim

/-- That each tablet is listed under its own extent lasts, also when tablets move or are released:
the new tablet has the old extent. -/
theorem lasting_filed : Lasting Table.Filed where
  begins h := h.sound.filed
  move _ h _ := Table.filed_put h rfl
  release _ := Table.filed_release _
  erase e h entry he := h entry ((Ledger.erase_sublist _ e).subset he)

/-- That no two tablets have a row in common lasts, because only putting a tablet in adds an
extent. -/
theorem lasting_sound : Lasting Table.Sound where
  begins h := h.sound
  move _ h hw := by
    refine ⟨?_, Table.filed_put h.filed rfl⟩
    -- the extents stay the same ones, and apart
    rw [Ledger.keys_put_of_get? hw]
    exact h.apart
  release {tablets} h := by
    refine ⟨?_, Table.filed_release _⟩
    rw [Table.keys_release]
    exact h.apart
  erase {tablets} e h := by
    have less := Ledger.erase_sublist tablets e
    exact ⟨h.apart.sublist (less.map Prod.fst), fun entry he => h.filed entry (less.subset he)⟩

/-- That the extents are distinct and can be looked up lasts, putting tablets in included: an extent
that cannot be looked up is refused then. -/
theorem lasting_keyed : Lasting Table.Keyed where
  begins h := h.keyed
  move {_ e t} location h hw := by
    have same := Ledger.keys_put_of_get? hw (Table.moved e t location)
    exact ⟨Ledger.distinct_put h.distinct _ _, same ▸ h.keys⟩
  release {tablets} h := by
    have same := Table.keys_release tablets
    refine ⟨?_, same ▸ h.keys⟩
    unfold Ledger.Distinct
    exact same ▸ h.distinct
  erase {tablets} e h := by
    have less := Ledger.erase_sublist tablets e
    exact ⟨h.distinct.sublist less, fun e he => h.keys e ((less.map Prod.fst).subset he)⟩

/-- After any history the extents of each table can be looked up. -/
theorem keyed_of_history (changes : List Change) :
    (Schedule.worldAfter empty (changes.map carryOut)).Each Table.Keyed :=
  each_of_history lasting_keyed fun _ _ _ _ _ key h => h.put key _

/-- After any history each tablet is listed under its own extent. -/
theorem filed_of_history (changes : List Change) :
    (Schedule.worldAfter empty (changes.map carryOut)).Each Table.Filed :=
  each_of_history lasting_filed fun _ _ _ _ _ _ h => Table.filed_put h rfl

/-- No two tablets of a table have a row in common, after any history without putting tablets in. A
tablet that is put in may overlap any of those that are there. -/
theorem apart_of_history {changes : List Change} (hp : ∀ change ∈ changes, change.isPut = false)
    {id : TableId} {tablets : List Tablet}
    (h : (Schedule.worldAfter empty (changes.map carryOut)).tablets id = .ok tablets) :
    Tablet.Apart tablets := by
  have sound : (Schedule.worldAfter empty (changes.map carryOut)).Each Table.Sound :=
    each_of_history lasting_sound fun change hmem put => by
      rw [hp change hmem] at put
      cases put
  obtain ⟨t, ht, hs⟩ := Result.bind_eq_ok.mp h
  exact (each_table sound ht).apart_sorted hs

end Registry

end ScanPlanner
