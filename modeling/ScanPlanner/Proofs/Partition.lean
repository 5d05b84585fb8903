import ScanPlanner.Proofs.Chains

/-!
# Tables as partitions

The tablets of a table are a partition of its keys (`Tablet.Partition`): one more than split points,
the first without a bound below and the last without one above, each beginning where the one before
it ends. So each key lies in one of them, they cover every range, and a range is located unless it
meets a tablet that is not hosted. All this is true after any history in which no tablet is put in
or removed (`Registry.partition_of_history`); with some removed, the tablets that are left are still
in order and without an overlap. -/

namespace ScanPlanner

variable {id : TableId} {ks : List RowKey} {t : Table} {ts : List Tablet}

/-! ## The order of the tablets -/

/-- The keys of an extent between split points are split points, so the keys of all tablets are of
one sort if the split points are. -/
theorem Extent.keys_subset_of_bounds {e : Extent}
    (h : e.bounds ∈ Registry.chainBounds none (ks.map some)) : e.rows.keys ⊆ ks := by
  have point {b : Option RowKey} (hb : b = none ∨ b ∈ ks.map some) : b.toList ⊆ ks := by
    rcases hb with rfl | hb
    · exact List.nil_subset _
    · obtain ⟨k, hk, rfl⟩ := List.mem_map.mp hb
      exact List.cons_subset.mpr ⟨hk, List.nil_subset _⟩
  rw [Extent.keys_rows]
  exact List.append_subset.mpr
    ⟨point (Registry.fst_of_mem_chainBounds h), point (Registry.snd_of_mem_chainBounds h)⟩

namespace Table

theorem Linked.keys_subset {tablets : Ledger Extent Tablet} (h : Linked id ks tablets) {e : Extent}
    (he : e ∈ tablets.keys) : e.rows.keys ⊆ ks :=
  Extent.keys_subset_of_bounds (h.bounds.subset (List.mem_map_of_mem he))

/-- A linked table lists its tablets in the order in which it has them: their bounds ascend already,
and the sort does not fail on keys of one sort. -/
theorem Linked.sorted_eq (h : Linked id ks t.tablets) (sort : OneSort ks)
    (order : ks.Pairwise (· < ·)) : t.sorted = .ok (t.tablets.map Prod.snd) := by
  -- all ends are of one sort, so the sort compares what it has to
  have comparable : (t.tablets.all fun x => t.tablets.all fun y => x.1.comparable y.1) = true := by
    rw [List.all_eq_true]
    intro x hx
    rw [List.all_eq_true]
    intro y hy
    have hx := List.mem_map_of_mem (f := Prod.fst) hx
    have hy := List.mem_map_of_mem (f := Prod.fst) hy
    refine Extent.comparable_of_alike (by rw [h.ids _ hx, h.ids _ hy]; exact BEq.rfl) ?_
    exact sort.alikeKeys (List.Subset.trans (Extent.last_subset_keys _) (h.keys_subset hx))
      (List.Subset.trans (Extent.last_subset_keys _) (h.keys_subset hy))
  -- a chain is sorted already, because each extent ends before those that come later
  have ascending : t.tablets.Pairwise fun x y => (!y.1.isBefore x.1) = true := by
    have bounds := (Registry.pairwise_behind_chainBounds order none).sublist h.bounds
    unfold Ledger.keys at bounds
    rw [List.pairwise_map, List.pairwise_map] at bounds
    refine bounds.imp_of_mem fun {x y} hx hy behind => ?_
    unfold Extent.isBefore
    rw [h.ids _ (List.mem_map_of_mem hx), h.ids _ (List.mem_map_of_mem hy), if_pos BEq.rfl,
      Bool.not_eq_true', decide_eq_false_iff_not, not_lt]
    exact le_of_lt (lt_of_le_of_lt behind y.1.ordered)
  unfold sorted Extent.sortOn Sorting.sort?
  rw [if_pos comparable, Sorting.sort_eq_insertionSort, ascending.insertionSort_eq]
  rfl

end Table

/-- Extents of one table that lie behind one another come in that order. -/
theorem Extent.before?_of_behind {e e' : Extent} (same : e.tableId = e'.tableId)
    (alike : alikeKeys e.last.toList e'.last.toList = true)
    (behind : Registry.Behind e.bounds e'.bounds) : e.before? e' = .ok true := by
  have comparable : e.comparable e' = true :=
    Extent.comparable_of_alike (same ▸ BEq.rfl) alike
  have isBefore : e.isBefore e' = true := by
    unfold Extent.isBefore
    rw [same, if_pos BEq.rfl]
    exact decide_eq_true (lt_of_le_of_lt behind e'.ordered)
  unfold before?
  rw [if_pos comparable, isBefore]

/-! ## Tablets between split points -/

namespace Tablet

/-- The tablets of one table, with bounds from the split points, in order. Some of the tablets that
were made may have been removed since. -/
structure OfChain (id : TableId) (ks : List RowKey) (ts : List Tablet) : Prop where
  ids : ∀ t ∈ ts, t.extent.tableId = id
  bounds : (ts.map fun t => t.extent.bounds).Sublist (Registry.chainBounds none (ks.map some))
  addressed : ∀ t ∈ ts, t.Addressed

/-- The tablets of a linked table, without the extents that they are listed under. From here on only
the tablets are looked at, as a reader sees them. -/
theorem ofChain_of_linked {s : String} (h : Table.Linked (.text s) ks t.tablets) :
    OfChain (.text s) ks (t.tablets.map Prod.snd) := by
  have extents : (t.tablets.map Prod.snd).map Tablet.extent = t.tablets.keys := by
    unfold Ledger.keys
    rw [List.map_map]
    refine List.map_congr_left fun entry he => ?_
    exact Extent.eq_of_beq_of_text (BEq.symm (h.filed entry he)) (h.ids _ (List.mem_map_of_mem he))
  refine ⟨fun u hu => h.ids _ (extents ▸ List.mem_map_of_mem hu), ?_, fun u hu => ?_⟩
  · have bounds := h.bounds
    rwa [← extents, List.map_map] at bounds
  · obtain ⟨entry, he, rfl⟩ := List.mem_map.mp hu
    exact h.addressed entry he

namespace OfChain

variable (h : OfChain id ks ts)

include h

theorem keys_subset {t : Tablet} (ht : t ∈ ts) : t.extent.rows.keys ⊆ ks :=
  Extent.keys_subset_of_bounds (h.bounds.subset (List.mem_map_of_mem ht))

theorem pairwise_behind (order : ks.Pairwise (· < ·)) :
    ts.Pairwise fun t u => Registry.Behind t.extent.bounds u.extent.bounds := by
  have behind := (Registry.pairwise_behind_chainBounds order none).sublist h.bounds
  rwa [List.pairwise_map] at behind

theorem ordered (order : ks.Pairwise (· < ·)) : Ordered ts := by
  refine (h.pairwise_behind order).imp fun behind => ?_
  rw [Extent.hi_span_rows, Extent.lo_span_rows]
  exact behind

/-- Of two tablets the earlier one is told to come first. -/
theorem pairwise_before (sort : OneSort ks) (order : ks.Pairwise (· < ·)) :
    ts.Pairwise fun t u => t.extent.before? u.extent = .ok true := by
  refine (h.pairwise_behind order).imp_of_mem fun {t u} ht hu behind => ?_
  refine Extent.before?_of_behind ((h.ids t ht).trans (h.ids u hu).symm) ?_ behind
  exact sort.alikeKeys (List.Subset.trans (Extent.last_subset_keys _) (h.keys_subset ht))
    (List.Subset.trans (Extent.last_subset_keys _) (h.keys_subset hu))

/-- The tablets can be read with any ranges whose keys can be compared with the split points, since
these are all the keys that the tablets have. -/
theorem legible (scalar : id.isScalar = true) {ranges : List KeyRange}
    (sort : OneSort (ks ++ ranges.flatMap KeyRange.keys)) : Legible ts ranges := by
  refine ⟨sort.subset ?_, fun t ht => ?_, h.addressed⟩
  · refine List.append_subset.mpr ⟨fun k hk => ?_, List.subset_append_right _ _⟩
    obtain ⟨t, ht, hk⟩ := List.mem_flatMap.mp hk
    exact List.mem_append_left _ (h.keys_subset ht hk)
  · have keys := h.keys_subset ht
    rw [Extent.keys_rows] at keys
    obtain ⟨prev, last⟩ := List.append_subset.mp keys
    have parts {k : Option RowKey} (hk : k.toList ⊆ ks) : k.all RowKey.isScalar = true := by
      cases k with
      | none => rfl
      | some k => exact sort.isScalar (List.mem_append_left _ (hk List.mem_cons_self))
    unfold Extent.isKey
    rw [h.ids t ht, scalar, parts prev, parts last]
    rfl

/-- With as many tablets as there are bounds, no bounds are missing. -/
theorem bounds_eq (length : ts.length = ks.length + 1) :
    (ts.map fun t => t.extent.bounds) = Registry.chainBounds none (ks.map some) := by
  refine h.bounds.eq_of_length ?_
  rw [List.length_map, length, Registry.length_chainBounds, List.length_map]

/-- If none of the tablets is missing, each key lies in one of them. They are counted for this:
there is one more than split points. -/
theorem gapless (length : ts.length = ks.length + 1) : Gapless ts := by
  intro c hc
  have start : Cut.behind none ≤ c := Cut.bottom_le c
  obtain ⟨b, hb, lo, hi⟩ := Registry.exists_mem_chainBounds start hc ks
  rw [← h.bounds_eq length] at hb
  obtain ⟨t, ht, rfl⟩ := List.mem_map.mp hb
  refine ⟨t, ht, ?_⟩
  unfold Span.Has
  rw [Extent.hi_span_rows, Extent.lo_span_rows]
  exact ⟨lo, hi⟩

end OfChain

/-! ## Partitions -/

/-- The tablets of a table divide the keys at its split points. -/
structure Partition (ks : List RowKey) (ts : List Tablet) : Prop where
  /-- There is one tablet more than split points. -/
  length : ts.length = ks.length + 1
  /-- The first tablet begins with the first keys of all. -/
  first : (ts.head?.map fun t => t.extent.prev) = some none
  /-- The last tablet ends with the last keys of all. -/
  last : (ts.getLast?.map fun t => t.extent.last) = some none
  /-- Each tablet follows the one before it. -/
  follows : ts.IsChain fun t u => u.extent.follows t.extent = true
  /-- Each key that can be compared with the split points lies in one of the extents. -/
  holder : ∀ k, OneSort (k :: ks) → ∃ t ∈ ts, ∀ u ∈ ts,
    u.extent.contains? (some k) = .ok (decide (u = t))
  /-- No range is found to be left uncovered. -/
  covered : ∀ range, covering? ts range ≠ .ok none
  /-- A range that can be compared with the split points is covered by the tablets that it meets. -/
  covering : ∀ range, OneSort (ks ++ range.keys) →
    covering? ts range = .ok (some (ts.filter (meets range)))

/-- One tablet of a partition holds a key. There is one because there is no gap, and it is the only
one because the tablets are in order. -/
theorem exists_holder (ordered : Ordered ts) (gapless : Gapless ts) (k : RowKey) :
    ∃ t ∈ ts, ∀ u ∈ ts, k ∈ u.extent.rows ↔ u = t := by
  obtain ⟨t, ht, has⟩ := gapless (.before k) trivial
  have holds : k ∈ t.extent.rows := Span.holds_iff_has.mpr has
  refine ⟨t, ht, fun u hu => ⟨fun hk => ?_, fun e => e ▸ holds⟩⟩
  by_contra other
  have symm : Std.Symm fun t u : Tablet => KeyRange.Disjoint t.extent.rows u.extent.rows :=
    ⟨fun _ _ h => h.symm⟩
  exact List.Pairwise.forall ordered.apart hu ht other k ⟨hk, holds⟩

/-- All the tablets between the split points are a partition. The first one has no lower row and the
last one no upper row; each begins where the one before it ends; and each key is held by exactly
one. -/
theorem OfChain.partition (h : OfChain id ks ts) (order : ks.Pairwise (· < ·))
    (length : ts.length = ks.length + 1) : Partition ks ts := by
  have ordered := h.ordered order
  have gapless := h.gapless length
  have bounds := h.bounds_eq length
  refine ⟨length, ?_, ?_, ?_, fun k sort => ?_, fun range none => ?_, fun range sort => ?_⟩
  · -- of the chain's bounds the first has no lower row and the last no upper one
    have first := Registry.head?_chainBounds none (ks.map some)
    rw [← bounds, List.head?_map, Option.map_map] at first
    exact first
  · have last := Registry.getLast?_chainBounds none (ks.map some)
    rw [← bounds, List.getLast?_map, Option.map_map] at last
    exact last
  · -- a bound begins where the one before ends
    have chained := Registry.isChain_chainBounds none ks
    rw [← bounds, List.isChain_map] at chained
    refine chained.imp_of_mem_imp fun t u ht hu next => ?_
    obtain ⟨ended, begins⟩ := next
    unfold Extent.follows
    rw [h.ids t ht, h.ids u hu, Bool.and_eq_true, Bool.and_eq_true]
    exact ⟨⟨BEq.rfl, ended⟩, beq_iff_eq.mpr begins.symm⟩
  · -- ordered and without a gap, the tablets have each key in exactly one
    obtain ⟨t, ht, only⟩ := exists_holder ordered gapless k
    refine ⟨t, ht, fun u hu => ?_⟩
    have alike : alikeKeys u.extent.rows.keys [k] = true :=
      sort.alikeKeys (List.subset_cons_of_subset _ (h.keys_subset hu))
        (List.cons_subset.mpr ⟨List.mem_cons_self, List.nil_subset _⟩)
    unfold Extent.contains?
    rw [KeyRange.contains?_of_alike alike]
    exact congrArg Except.ok (decide_eq_decide.mpr (only u hu))
  · cases covering?_of_gapless ordered gapless none
  · have keys : ∀ t ∈ ts, t.extent.rows.keys ⊆ ks ++ range.keys := fun t ht =>
      List.Subset.trans (h.keys_subset ht) (List.subset_append_left _ _)
    obtain ⟨found, hfound⟩ := exists_covering? sort (List.subset_append_right ks range.keys) keys
    rw [hfound, covering?_of_gapless ordered gapless hfound]

end Tablet

/-! ## Histories -/

namespace Registry

variable {changes : List Change}

/-- In the history, the id was given to a table that was created with the split points. The creation
is found by what it does in the registry that it finds. -/
def CreatedWith (changes : List Change) (id : TableId) (ks : List RowKey) : Prop :=
  ∃ before name places state after r',
    changes = before ++ .create name (ks.map some) places state :: after ∧
      (empty.run before).create name (ks.map some) places state = .ok (id, r')

theorem CreatedWith.concat (h : CreatedWith changes id ks) (change : Change) :
    CreatedWith (changes ++ [change]) id ks := by
  obtain ⟨before, name, places, state, after, r', rfl, created⟩ := h
  exact ⟨before, name, places, state, after ++ [change], r', List.append_assoc _ _ _, created⟩

/-- The table was created with the split points: its tablets are linked by them, and all of these
are there as long as none is removed. -/
structure Divided (changes : List Change) (id : TableId) (ks : List RowKey) (t : Table) : Prop where
  created : CreatedWith changes id ks
  sort : OneSort ks
  order : ks.Pairwise (· < ·)
  linked : Table.Linked id ks t.tablets
  whole : (∀ change ∈ changes, change.isRemove = false) → t.tablets.length = ks.length + 1

/-- Points that each have a sort and can be compared are of one sort. The check of a new table
compares all of them, so it ensures this. -/
theorem oneSort_of_comparable {ks : List RowKey} (kinds : ∀ k ∈ ks, k.kind?.isSome = true)
    (comparable : (ks.map some).all (fun p => (ks.map some).all (comparablePoints p)) = true) :
    OneSort ks := by
  intro a ha b hb
  have each := List.all_eq_true.mp comparable _ (List.mem_map_of_mem ha)
  have both := List.all_eq_true.mp each _ (List.mem_map_of_mem hb)
  unfold comparablePoints at both
  rw [Bool.or_eq_true, beq_iff_eq] at both
  rcases both with same | before
  · cases same
    obtain ⟨s, hs⟩ := Option.isSome_iff_exists.mp (kinds a ha)
    exact RowKey.alike_iff.mpr ⟨s, hs, hs⟩
  · exact RowKey.alike_of_before? (kinds a ha) (kinds b hb) before

/-- Points that are all texts or numbers, and can be compared, are keys of one sort in strict order.
No point is missing then, and none is a number without a place. -/
theorem exists_keys {points : List (Option RowKey)}
    (keys : ∀ p ∈ points, ∃ k : RowKey, p = some k ∧ k.kind?.isSome = true)
    (comparable : points.all (fun p => points.all (comparablePoints p)) = true)
    (inOrder : InOrder points) :
    ∃ ks : List RowKey, points = ks.map some ∧ OneSort ks ∧ ks.Pairwise (· < ·) := by
  rcases inOrder with rfl | ⟨ks, rfl, order⟩
  · obtain ⟨k, e, -⟩ := keys none List.mem_cons_self
    cases e
  · refine ⟨ks, rfl, oneSort_of_comparable (fun k hk => ?_) comparable, order⟩
    obtain ⟨l, e, hl⟩ := keys _ (List.mem_map_of_mem hk)
    cases e
    exact hl

/-- Each table that is there was created with some split points, by which it is divided. The points
are those of the last table that was created with the id, and as ids are not used again there is
just one such. -/
theorem exists_divided (tame : ∀ change ∈ changes, change.Tame)
    (there : (empty.run changes).table id = .ok t) : ∃ ks, Divided changes id ks t := by
  -- induction on the history from its end: the last change creates the table, or works on one that
  -- was there
  induction changes using List.reverseRecOn generalizing t with
  | nil => cases (get?_of_table there).2
  | append_singleton changes change ih =>
    have earlier := fun c hc => tame c (List.mem_append_left _ hc)
    have last := tame change (List.mem_append_right _ List.mem_cons_self)
    have h := orderly_run orderly_empty changes
    have ht := transition_next (empty.run changes) change
    rw [run_concat] at there
    rcases used_or_created h ht (get?_of_table there).2 with
      used | ⟨name, points, places, state, rfl, hc⟩
    · obtain ⟨t', there', e⟩ := used.table_of_next there
      obtain ⟨ks, divided⟩ := ih earlier there'
      have before {P : Change → Prop} (all : ∀ c ∈ changes ++ [change], P c) : ∀ c ∈ changes, P c :=
        fun c hc => all c (List.mem_append_left _ hc)
      refine ⟨ks, divided.created.concat change, divided.sort, divided.order, ?_, ?_⟩
      · rcases e with rfl | ⟨-, becomes⟩
        · exact divided.linked
        · exact (becomes.linked last divided.linked).1
      · intro all
        rw [← divided.whole (before all)]
        rcases e with rfl | ⟨-, becomes⟩
        · rfl
        · exact (becomes.linked last divided.linked).2
            (all change (List.mem_append_right _ List.mem_cons_self))
    · rw [next_of_create hc] at there
      obtain ⟨keys, addresses⟩ := last
      obtain ⟨e, tablets, begins, e'⟩ := create_eq_ok hc
      obtain ⟨ks, rfl, sort, order⟩ := exists_keys keys begins.comparable begins.inOrder
      obtain ⟨locations, located, made⟩ := begins.made
      rw [List.length_map] at located
      obtain ⟨linked, length⟩ := linked_chain order located addresses made
      have found := (get?_of_table there).2
      rw [e', Ledger.get?_put_self, Option.some.injEq] at found
      subst found e
      exact ⟨ks, ⟨changes, name, places, state, [], _, rfl, hc⟩, sort, order, linked,
        fun _ => length⟩

/-- How ranges of a table are resolved while nothing is remembered of it: those that meet a tablet
without a host are left out, and there is a result if the keys can be compared. -/
def Resolves (r : Registry) (id : TableId) (ks : List RowKey) (ts : List Tablet) : Prop :=
  ∀ (ranges : List KeyRange) (known : Lru TableId (List Tablet)) (notes : List Note),
    known.find? id = none → known.WellFormed →
      (∀ l, (outcome ((Locator.cached catalog).resolve id ranges) ⟨⟨r, known⟩, notes⟩).1 = .ok l →
        ∀ range ∈ ranges, range ∈ l.unresolved ↔
          ∃ t ∈ ts, t.meets range = true ∧ t.location = none) ∧
      (1 ≤ known.capacity → OneSort (ks ++ ranges.flatMap KeyRange.keys) →
        ∃ l, (outcome ((Locator.cached catalog).resolve id ranges) ⟨⟨r, known⟩, notes⟩).1 = .ok l)

variable {r : Registry}

/-- In a table whose tablets leave no gap a range is located unless it meets a tablet that is not
hosted, because all that it meets cover it. -/
theorem resolves_of_gapless (scalar : id.isScalar = true) (found : r.tablets id = .ok ts)
    (ordered : Tablet.Ordered ts) (gapless : Tablet.Gapless ts)
    (legible : ∀ ranges : List KeyRange, OneSort (ks ++ ranges.flatMap KeyRange.keys) →
      Tablet.Legible ts ranges) : r.Resolves id ks ts := by
  intro ranges known notes forgotten wellFormed
  obtain ⟨known', notes', run, -⟩ :=
    store.outcome_resolve ranges scalar r forgotten wellFormed notes
  rw [Store.catalog_registry] at run
  rw [run]
  have now : store.tabletsNow r id = .ok ts := Store.tabletsNow_of_tablets found
  unfold Store.located
  constructor
  · intro l hl
    obtain ⟨ts', via, hl⟩ := Result.bind_eq_ok.mp hl
    -- what comes out of the cache was read just now, since it was forgotten before
    have same := Store.tabletsNow_of_tabletsVia via
    rw [now, Except.ok.injEq] at same
    subst same
    exact fun range hr => Located.mem_unresolved_iff ordered gapless hl hr
  · intro room sort
    rw [Store.tabletsVia_of_le room, now, Result.bind_ok]
    exact ⟨_, Located.ofTablets_of_legible (legible ranges sort)⟩

/-- After any history in which no tablet is put in, each table that is there was created with some
split points, and its tablets have no row in common and are in order. As long as none is removed,
they are a partition of the keys, and ranges are resolved by them. -/
theorem partition_of_history (tame : ∀ change ∈ changes, change.Tame)
    (there : (empty.run changes).tableExists id = .ok true) :
    ∃ ks ts, CreatedWith changes id ks ∧ (empty.run changes).tablets id = .ok ts ∧
      Tablet.Apart ts ∧ ts.Pairwise (fun t u => t.extent.before? u.extent = .ok true) ∧
      ((∀ change ∈ changes, change.isRemove = false) →
        Tablet.Partition ks ts ∧ (empty.run changes).Resolves id ks ts) := by
  obtain ⟨t, ht⟩ := exists_table_of_tableExists there
  obtain ⟨scalar, found⟩ := get?_of_table ht
  obtain ⟨n, -, rfl⟩ := (orderly_run orderly_empty changes).exists_number found
  obtain ⟨ks, created, sort, order, linked, whole⟩ := exists_divided tame ht
  have tablets := (tablets_of_table ht).trans (linked.sorted_eq sort order)
  have ofChain := Tablet.ofChain_of_linked linked
  refine ⟨ks, _, created, tablets, (ofChain.ordered order).apart,
    ofChain.pairwise_before sort order, fun none_removed => ?_⟩
  have length := (List.length_map (f := Prod.snd)).trans (whole none_removed)
  exact ⟨ofChain.partition order length, resolves_of_gapless scalar tablets (ofChain.ordered order)
    (ofChain.gapless length) fun _ => ofChain.legible scalar⟩

/-- A table with one split point is renamed, and its upper tablet is moved. -/
def movedAndRenamed : List Change := [
  .create (.text "t") [some (.text "m")] (.listed [some (.text "a:1"), none]) .online,
  .rename (.text "t") (.text "u"), .setLocation (.text "u") (.index (-1)) (some (.text "b:1"))]

/-- A table is still divided at its split points after one of its tablets has moved and it has been
given another name. -/
theorem partition_movedAndRenamed :
    (∀ change ∈ movedAndRenamed, change.Tame ∧ change.isRemove = false) ∧
      ∃ ks ts, CreatedWith movedAndRenamed (.text "1") ks ∧
        (empty.run movedAndRenamed).tablets (.text "1") = .ok ts ∧ Tablet.Partition ks ts := by
  have each : ∀ change ∈ movedAndRenamed, change.Tame ∧ change.isRemove = false := by
    refine List.forall_mem_cons.mpr ⟨⟨⟨by decide, ?_⟩, rfl⟩, List.forall_mem_cons.mpr
      ⟨⟨trivial, rfl⟩, List.forall_mem_singleton.mpr ⟨?_, rfl⟩⟩⟩
    · intro locations e a ha
      cases e
      simp only [List.mem_cons, Option.some.injEq, reduceCtorEq, List.not_mem_nil, or_false] at ha
      rw [ha]
      rfl
    · intro a e
      cases e
      rfl
  have there : (empty.run movedAndRenamed).tableExists (.text "1") = .ok true := rfl
  refine ⟨each, ?_⟩
  obtain ⟨ks, ts, created, tablets, -, -, whole⟩ :=
    partition_of_history (fun c hc => (each c hc).1) there
  exact ⟨ks, ts, created, tablets, (whole fun c hc => (each c hc).2).1⟩

end Registry

end ScanPlanner
