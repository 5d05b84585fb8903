import ScanPlanner.Proofs.Decisive
import ScanPlanner.Proofs.History

/-!
# Taking a table offline

A table that is taken offline has each of its tablets released: the node that hosted it becomes its
last one. If all of them were hosted, the ranges of the table are then assigned as they were located
before, and they are not assigned at all if one of them could not be located
(`Registry.bin_of_resolve`).

Both ways to assign ranges look for tablets by their extents alone, so the search among the released
tablets is the search among the hosted ones (`Tablet.covering?_map`).
-/

namespace ScanPlanner

/-- An extent that equals one of a table that is named by a text is that extent; other names can be
written in more than one way. -/
theorem Extent.eq_of_beq_of_text {e e' : Extent} {s : String} (h : (e == e') = true)
    (text : e'.tableId = .text s) : e = e' := by
  have same : e.identity = e'.identity := of_decide_eq_true h
  obtain ⟨id, prev, last, _⟩ := e
  obtain ⟨id', prev', last', _⟩ := e'
  simp only [identity, Prod.mk.injEq] at same
  obtain ⟨ids, rfl, rfl⟩ := same
  dsimp only at text
  -- only a text means the same as a text
  have : id = .text s := by
    rw [text] at ids
    exact Json.eq_text_of_canonical ids
  rw [Extent.mk.injEq]
  exact ⟨this.trans text.symm, rfl, rfl⟩

/-! ## Released tablets -/

namespace Tablet

/-- The tablet is hosted. Ids and addresses are texts. -/
structure IsHosted (t : Tablet) : Prop where
  id : ∃ s, t.extent.tableId = .text s
  address : ∃ s, t.location = some (.text s)

/-- The tablet, hosted by no node any more. -/
def released (t : Tablet) : Tablet := Table.moved t.extent t none

/-- A tablet that is released remembers the node that hosted it, which is where its ranges go
offline. -/
theorem IsHosted.lastAddress_released {t : Tablet} (h : t.IsHosted) :
    Offline.lastAddress t.released = t.host := by
  obtain ⟨s, hs⟩ := h.address
  unfold Offline.lastAddress released Table.moved host
  rw [hs]
  -- the empty address stands for itself
  show (if (Json.text s).isPresent then Json.text s else .text "") = .text s
  split
  · rfl
  · next empty =>
    have : s = "" := by
      simpa [Json.isPresent] using empty
    rw [this]

variable {g : Tablet → Tablet}

/-- The search looks at nothing but extents, so it finds the same tablets if these are replaced by
others with the same extents. -/
theorem collect_map (hg : ∀ t, (g t).extent = t.extent) (range : KeyRange)
    (ts found : List Tablet) (covered : List Span) :
    collect range (ts.map g) (found.map g) covered =
      (collect range ts found covered).map fun out => (out.1.map g, out.2) := by
  -- induction on the list, for whatever was found before
  induction ts generalizing found covered with
  | nil => rfl
  | cons t ts ih =>
    rw [List.map_cons, collect, collect, hg]
    cases t.extent.rows.overlaps? range with
    | error f => rfl
    | ok overlaps =>
      cases overlaps with
      | true =>
        simp only [Result.bind_ok, if_true]
        cases KeyRange.addTo covered t.extent.rows with
        | error f => rfl
        | ok union =>
          have more := ih (found ++ [t]) union
          rwa [List.map_append, List.map_singleton] at more
      | false =>
        simp only [Result.bind_ok, Bool.false_eq_true, if_false, List.isEmpty_map]
        split
        · exact ih found covered
        · rfl

/-- The search reads of the tablets no more than their extents, so released tablets cover what they
covered when they were hosted. -/
theorem covering?_map (hg : ∀ t, (g t).extent = t.extent) (tablets : List Tablet)
    (range : KeyRange) :
    covering? (tablets.map g) range = (covering? tablets range).map (Option.map (List.map g)) := by
  have found := collect_map hg range tablets [] []
  rw [List.map_nil] at found
  unfold covering?
  rw [found]
  cases collect range tablets [] [] with
  | error f => rfl
  | ok out =>
    obtain ⟨found, covered⟩ := out
    simp only [Except.map, Result.bind_ok, List.isEmpty_map]
    -- the search looks at the extents only, and these are the same
    cases found.isEmpty with
    | true => rfl
    | false =>
      cases alikeKeys (KeyRange.spanKeys covered) range.keys with
      | false => rfl
      | true => cases Span.someCovers covered range.span <;> rfl

end Tablet

/-! ## Ranges of a released table -/

namespace Offline

variable {tablets : List Tablet} {ranges : List KeyRange} {range : KeyRange}

/-- A released tablet is assigned its ranges on the node that hosted it. -/
theorem addTablet_released {t : Tablet} (h : t.IsHosted) (key : t.extent.isKey = true)
    (range : KeyRange) (b : Binning) :
    addTablet range b t.released = .ok (b.addAll [⟨t.host, t.extent, range⟩]) := by
  have scalar : t.host.isScalar = true := by
    obtain ⟨s, hs⟩ := h.address
    rw [Tablet.host, hs]
    rfl
  show (b.assign (lastAddress t.released) t.extent range).mapError Setback.failed = _
  rw [h.lastAddress_released, Binning.assign_of_isKey b range scalar key]
  rfl

/-- A range that is covered is assigned as the tablets were hosted; for any other there is an
obstacle. -/
theorem addRange_released (hosted : ∀ t ∈ tablets, t.IsHosted)
    (keyed : ∀ t ∈ tablets, t.extent.isKey = true) {found : Option (List Tablet)}
    (h : Tablet.covering? tablets range = .ok found) (b : Binning) :
    addRange (tablets.map Tablet.released) b range = if found.isSome then
      .ok (b.addAll (Tablet.assigned Tablet.host tablets range))
    else .error (.obstacle (.hole range)) := by
  have search : Tablet.covering? (tablets.map Tablet.released) range =
      .ok (found.map (List.map Tablet.released)) := by
    rw [Tablet.covering?_map (g := Tablet.released) (fun _ => rfl), h]
    rfl
  unfold addRange
  rw [search]
  cases found with
  | none => rfl
  | some found =>
    have sub := (Tablet.covering?_eq_some h).1
    -- a released tablet remembers its host, so the range goes to the node it was on
    have each : ∀ t ∈ found, ∀ b, addTablet range b t.released =
        .ok (b.addAll [⟨t.host, t.extent, range⟩]) :=
      fun t ht => addTablet_released (hosted t (sub.subset ht)) (keyed t (sub.subset ht)) range
    unfold Tablet.assigned Tablet.coverers
    rw [h, List.map_eq_flatMap]
    show (found.map Tablet.released).foldlM (addTablet range) b = _
    rw [List.foldlM_map]
    exact Binning.foldlM_eq_addAll each b

/-- With all tablets hosted, a range is located if and only if it is covered. -/
theorem isSome_covering (hosted : ∀ t ∈ tablets, t.IsHosted) {found : Option (List Tablet)}
    (h : Tablet.covering? tablets range = .ok found) :
    found.isSome = Located.isLocated tablets range := by
  unfold Located.isLocated
  rw [h]
  cases found with
  | none => rfl
  | some found =>
    have sub := (Tablet.covering?_eq_some h).1
    refine Eq.symm (List.all_eq_true.mpr fun t ht => ?_)
    obtain ⟨s, hs⟩ := (hosted t (sub.subset ht)).address
    rw [hs]
    rfl

/-- Released tablets are assigned the ranges as they were located among the hosted ones, all of them
or none. -/
theorem ofTablets_released (hosted : ∀ t ∈ tablets, t.IsHosted)
    (keyed : ∀ t ∈ tablets, t.extent.isKey = true) {l : Located}
    (h : Located.ofTablets tablets ranges = .ok l) :
    if l.isComplete then ofTablets (tablets.map Tablet.released) ranges = .ok l.binning
    else ∃ why, ofTablets (tablets.map Tablet.released) ranges = .error (.obstacle why) := by
  have each : ∀ r ∈ ranges, ∀ b, addRange (tablets.map Tablet.released) b r =
      if Located.isLocated tablets r then .ok (b.addAll (Tablet.assigned Tablet.host tablets r))
      else .error (.obstacle (.hole r)) := by
    intro r hr b
    obtain ⟨found, hfound⟩ := Located.exists_covering?_of_ofTablets h r hr
    rw [addRange_released hosted keyed hfound, isSome_covering hosted hfound]
  -- with all ranges located each step of the offline binning is one of the online binning; else a
  -- hole is met
  cases complete : l.isComplete with
  | true =>
    obtain ⟨located, spread⟩ := Located.spread_of_isComplete h complete
    rw [if_pos rfl, spread]
    exact Binning.foldlM_eq_addAll (fun r hr b => (each r hr b).trans (if_pos (located r hr))) _
  | false =>
    rw [Located.ofTablets_eq_ok h] at complete
    have some : ranges.all (Located.isLocated tablets) = false :=
      (Located.isEmpty_unresolved tablets ranges).symm.trans complete
    refine exists_obstacle_of_foldlM (fun r hr located b => ?_) (fun r hr missed b => ?_) some _
    · exact ⟨_, (each r hr b).trans (if_pos located)⟩
    · refine ⟨.hole r, (each r hr b).trans (if_neg ?_)⟩
      rw [missed]
      exact Bool.false_ne_true

end Offline

namespace Table

variable {t : Table} {tablets : List Tablet}

/-- Taking a table offline releases each of its tablets and keeps their order. Nothing is written
that was not there, so the extents can be looked up as before. -/
theorem sorted_inState_offline (filed : Filed t.tablets) (keyed : Keyed t.tablets)
    (hosted : ∀ entry ∈ t.tablets, entry.2.IsHosted) (h : t.sorted = .ok tablets) :
    (t.inState .offline).sorted = .ok (tablets.map Tablet.released) ∧
      ∀ u ∈ tablets, u.IsHosted ∧ u.extent.isKey = true := by
  obtain ⟨entries, sorted, h⟩ := Result.bind_eq_ok.mp h
  cases h
  have perm : entries.Perm t.tablets := Sorting.perm_of_sort? sorted
  -- each tablet is filed under its own extent
  have own : ∀ entry ∈ entries, entry.1 = entry.2.extent := by
    intro entry he
    obtain ⟨s, text⟩ := (hosted entry (perm.subset he)).id
    exact Extent.eq_of_beq_of_text (filed entry (perm.subset he)) text
  constructor
  · have order : Extent.sortOn Prod.fst (t.inState .offline).tablets =
        .ok (entries.map fun entry => (entry.1, moved entry.1 entry.2 none)) := by
      unfold Extent.sortOn at sorted ⊢
      show Sorting.sort? _ _ (t.tablets.map fun entry =>
        (entry.1, moved entry.1 entry.2 none)) = _
      rw [Sorting.sort?_map]
      show (Sorting.sort? _ _ t.tablets).map _ = _
      rw [sorted]
      rfl
    unfold Table.sorted
    rw [order, Result.bind_ok, List.map_map, List.map_map, Result.pure_eq]
    refine congrArg Except.ok (List.map_congr_left fun entry he => ?_)
    show moved entry.1 entry.2 none = moved entry.2.extent entry.2 none
    rw [own entry he]
  · intro u hu
    obtain ⟨entry, he, rfl⟩ := List.mem_map.mp hu
    have mem := perm.subset he
    exact ⟨hosted entry mem, own entry he ▸ keyed.keys entry.1 (List.mem_map_of_mem mem)⟩

end Table

/-! ## Histories -/

namespace Registry

variable {r : Registry} {name : TableName} {id : TableId} {t : Table}

/-- Taking a table offline changes nothing but that table. -/
theorem apply_setState (h : r.named name = .ok (id, t)) (state : TableState) :
    r.apply (.setState name state) =
      .ok { r with tables := r.tables.put id (t.inState state) } := by
  show r.setState name state = _
  unfold setState update
  rw [h]
  rfl

/-- A change that succeeds leaves the registry that it leads to. -/
theorem outcome_carryOut_of_ok {change : Change} {after : Registry} (h : r.apply change = .ok after)
    (notes : List Note) : outcome (carryOut change) ⟨r, notes⟩ = (.ok (), ⟨after, notes⟩) := by
  unfold carryOut
  rw [outcome_bind, Effect.outcome_world]
  simp only [h]
  rfl

/-- If all tablets of a table are hosted, then after it has been taken offline its ranges are
assigned as they were located before, or not at all if one of them could not be located. -/
theorem bin_of_resolve {changes : List Change}
    (history : r = Schedule.worldAfter empty (changes.map carryOut))
    (named : r.named name = .ok (id, t)) (hosted : ∀ entry ∈ t.tablets, entry.2.IsHosted)
    {capacity : Int} {ranges : List KeyRange} {l : Located} {scene : Scene (Cached Registry)}
    (resolved : outcome ((Locator.cached catalog).resolve id ranges)
      ⟨⟨r, .empty capacity⟩, []⟩ = (.ok l, scene)) :
    ∃ after notes,
      outcome (carryOut (.setState name .offline)) ⟨r, []⟩ = (.ok (), ⟨after, []⟩) ∧
      outcome (Offline.bin catalog id ranges) ⟨after, []⟩ =
        (.ok (if l.isComplete then some l.binning else none), ⟨after, notes⟩) := by
  have ht := (named_eq_ok named).2
  have scalar := (get?_of_table ht).1
  have fresh : (Lru.empty capacity : Lru TableId (List Tablet)).find? id = none := rfl
  obtain ⟨_, _, run, -, -⟩ :=
    store.outcome_resolve ranges scalar r fresh (Lru.wellFormed_empty capacity) []
  rw [Store.catalog_registry, resolved] at run
  -- the ranges were located among the tablets of the table
  obtain ⟨tablets, via, located⟩ := Result.bind_eq_ok.mp (congrArg Prod.fst run).symm
  have sorted : t.sorted = .ok tablets := by
    rw [← tablets_of_table ht]
    refine Store.tablets_of_tabletsNow (Store.tabletsNow_of_tabletsVia via) fun _ missing => ?_
    cases Table.eq_unlike_of_sorted ((tablets_of_table ht).symm.trans missing)
  have filed : Table.Filed t.tablets := by
    have each := filed_of_history changes
    rw [← history] at each
    exact each_table each ht
  have keyed : Table.Keyed t.tablets := by
    have each := keyed_of_history changes
    rw [← history] at each
    exact each_table each ht
  obtain ⟨order, each⟩ := Table.sorted_inState_offline filed keyed hosted sorted
  -- afterwards the table is offline, and its tablets are the released ones
  let after : Registry := { r with tables := r.tables.put id (t.inState .offline) }
  have ht' : after.table id = .ok (t.inState .offline) :=
    table_of_get? scalar (Ledger.get?_put_self _ _ _)
  have state : store.tableState after id = .ok .offline := tableState_of_table ht'
  have released : store.tablets after id = .ok (tablets.map Tablet.released) :=
    (tablets_of_table ht').trans order
  obtain ⟨notes, bin⟩ := store.outcome_bin id ranges after []
  refine ⟨after, notes, outcome_carryOut_of_ok (apply_setState named .offline) [], ?_⟩
  rw [← Store.catalog_registry, bin, Prod.mk.injEq]
  refine ⟨?_, rfl⟩
  unfold Store.offline
  rw [state, Result.bind_ok, if_neg (not_not_intro rfl), released]
  have assigned := Offline.ofTablets_released (fun u hu => (each u hu).1)
    (fun u hu => (each u hu).2) located
  cases complete : l.isComplete with
  | true =>
    rw [complete, if_pos rfl] at assigned
    simp only [Result.pure_eq, Result.bind_ok, assigned]
    rfl
  | false =>
    rw [complete, if_neg Bool.false_ne_true] at assigned
    obtain ⟨why, obstacle⟩ := assigned
    simp only [Result.pure_eq, Result.bind_ok, obstacle]
    rfl

/-- The only tablet of a table is split by putting in two others in its place. -/
def splitting : List Change := [
  .create (.text "t") [] (.listed [some (.text "a:1")]) .online,
  .put (.text "t") ⟨.lowerHalf, some (.text "a:1"), none⟩,
  .put (.text "t") ⟨.upperHalf, some (.text "b:1"), none⟩,
  .remove (.text "t") (.given ⟨.text "1", none, none, trivial⟩)]

/-- The table that was split is taken offline, and its ranges are assigned to the nodes that hosted
its halves. -/
theorem bin_of_resolve_halves :
    ∃ after notes,
      outcome (carryOut (.setState (.text "t") .offline))
        ⟨Schedule.worldAfter empty (splitting.map carryOut), []⟩ = (.ok (), ⟨after, []⟩) ∧
      outcome (Offline.bin catalog (.text "1") [.acrossHalves]) ⟨after, []⟩ =
        (.ok (some (.spread Tablet.host [⟨.lowerHalf, some (.text "a:1"), none⟩,
          ⟨.upperHalf, some (.text "b:1"), none⟩] [.acrossHalves])), ⟨after, notes⟩) := by
  have history : Schedule.worldAfter empty (splitting.map carryOut) =
      halves .online (some (.text "a:1")) (some (.text "b:1")) := rfl
  have hosted : ∀ entry ∈ ([(.lowerHalf, ⟨.lowerHalf, some (.text "a:1"), none⟩),
      (.upperHalf, ⟨.upperHalf, some (.text "b:1"), none⟩)] : Ledger Extent Tablet),
      entry.2.IsHosted := by
    intro entry he
    rcases List.mem_pair.mp he with rfl | rfl <;> exact ⟨⟨_, rfl⟩, _, rfl⟩
  rw [history]
  have resolved : outcome ((Locator.cached catalog).resolve (.text "1") [.acrossHalves])
      ⟨⟨halves .online (some (.text "a:1")) (some (.text "b:1")), .empty 1⟩, []⟩ =
        (.ok ⟨.spread Tablet.host [⟨.lowerHalf, some (.text "a:1"), none⟩,
          ⟨.upperHalf, some (.text "b:1"), none⟩] [.acrossHalves], []⟩, _) := rfl
  exact bin_of_resolve history.symm rfl hosted resolved

end Registry

end ScanPlanner
