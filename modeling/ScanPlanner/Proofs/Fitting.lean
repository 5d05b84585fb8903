import ScanPlanner.Planning.Splitting
import ScanPlanner.Proofs.Binning
import ScanPlanner.Proofs.Covering

/-!
# Binnings whose ranges fit

A binning that is made by adding ranges has no empty places: every node has an extent, and every
extent on a node has a range (`Binning.filled_ofAssignments`). If each range overlaps the extent
that it is assigned to, and table ids and keys can be compared (`Assignment.Fit`), nothing can fail
on the way from the binning to the parts of its ranges: the nodes and their bins can be walked in
order, and every range has a part in its extent (`Binning.exists_locations`,
`Binning.exists_parts`).
-/

namespace ScanPlanner

/-! ## What a binning has -/

namespace Binning

/-- The extents with the nodes that they are on. -/
def pairs (b : Binning) : List (Address × Extent) :=
  b.bins.flatMap fun e => e.2.map fun x => (e.1, x.1)

/-- Every node has an extent, and every extent on a node has a range. Entries are made only when a
range is assigned to them, so there is no empty batch. -/
structure Filled (b : Binning) : Prop where
  nodes : ∀ e ∈ b.bins, e.2 ≠ []
  extents : ∀ e ∈ b.bins, ∀ x ∈ e.2, x.2 ≠ []

/-- Adding a range leaves no place empty: where a node or an extent is new, it comes with the
range. -/
theorem filled_add {b : Binning} (h : b.Filled) (location : Address) (extent : Extent)
    (range : KeyRange) : (b.add location extent range).Filled := by
  -- the ranges of the extent that is meant grow, and those of the others stay
  have grown (extents : Ledger Extent (List KeyRange)) (hx : ∀ x ∈ extents, x.2 ≠ []) :
      ∀ x ∈ extents.alter extent fun rs => rs.getD [] ++ [range], x.2 ≠ [] := by
    intro x hx'
    rcases Ledger.mem_alter hx' with hx' | rfl | ⟨v, -, -, e⟩
    · exact hx x hx'
    · simp
    · rw [e]
      simp
  constructor
  · intro e he
    rcases Ledger.mem_alter he with he | rfl | ⟨v, -, -, e'⟩
    · exact h.nodes e he
    · exact Ledger.alter_ne_nil _ _ _
    · rw [e']
      exact Ledger.alter_ne_nil _ _ _
  · intro e he
    rcases Ledger.mem_alter he with he | rfl | ⟨v, -, hv, e'⟩
    · exact h.extents e he
    · exact grown [] (by simp)
    · rw [e']
      exact grown v (h.extents _ hv)

/-- So a binning that is made of assignments has no empty place. -/
theorem filled_ofAssignments (as : List Assignment) : (ofAssignments as).Filled := by
  induction as using List.reverseRecOn with
  | nil => exact ⟨by simp [ofAssignments, empty], by simp [ofAssignments, empty]⟩
  | append_singleton as a ih =>
    rw [ofAssignments_append]
    exact filled_add ih _ _ _

/-- What a binning holds means the same as something that was added to it. Its node and its extent
are those that were added first of all equal ones; its range is the very same. -/
theorem exists_of_mem_assignments {as : List Assignment} {a : Assignment}
    (h : a ∈ (ofAssignments as).assignments) :
    ∃ a' ∈ as, (a'.location == a.location) = true ∧ (a'.extent == a.extent) = true ∧
      a'.range = a.range := by
  -- what is looked at is the same for entries that mean the same, so adding them keeps it
  have respects : Assignment.Respects fun a : Assignment =>
      (a.location.canonical, a.extent.identity, a.range) := by
    intro a a' location extent range
    have location : a.location.canonical = a'.location.canonical := of_decide_eq_true location
    have extent : a.extent.identity = a'.extent.identity := of_decide_eq_true extent
    beta_reduce
    rw [location, extent, range]
  have held := (perm_ofAssignments respects as).subset (List.mem_map_of_mem h)
  obtain ⟨a', ha', same⟩ := List.mem_map.mp held
  simp only [Prod.mk.injEq] at same
  obtain ⟨location, extent, range⟩ := same
  exact ⟨a', ha', decide_eq_true location, decide_eq_true extent, range⟩

variable {b : Binning} {node : Address} {bins : List Bin}

theorem exists_of_mem_locations {nodes : List Address} (h : b.locations = .ok nodes)
    (hn : node ∈ nodes) : ∃ e ∈ b.bins, e.1 = node :=
  List.mem_map.mp ((Sorting.perm_of_sort? h).subset hn)

/-- The bins of a node are its extents with their ranges, sorted by the extents. Nothing is known of
the order of those that tie. -/
theorem binsAt_eq_ok (hb : b.WellFormed) {e : Address × Ledger Extent (List KeyRange)}
    (he : e ∈ b.bins) (h : b.binsAt e.1 = .ok bins) :
    ∃ sorted : List (Extent × List KeyRange), sorted.Perm e.2 ∧
      bins = sorted.map fun x => ⟨e.1, x.1, x.2⟩ := by
  obtain ⟨sorted, hsorted, h⟩ := Result.bind_eq_ok.mp h
  cases h
  rw [extents_of_mem hb he] at hsorted
  exact ⟨sorted, Sorting.perm_of_sort? hsorted, rfl⟩

/-- No place in the bins of a node is empty: neither is the node without bins, nor a bin without
ranges, because both come with an assignment. -/
theorem Filled.binsAt (h : b.Filled) (hb : b.WellFormed)
    {e : Address × Ledger Extent (List KeyRange)} (he : e ∈ b.bins)
    (hbins : b.binsAt e.1 = .ok bins) : bins ≠ [] ∧ ∀ bin ∈ bins, bin.ranges ≠ [] := by
  obtain ⟨sorted, perm, rfl⟩ := binsAt_eq_ok hb he hbins
  constructor
  · intro none
    rw [List.map_eq_nil_iff] at none
    rw [none, List.nil_perm] at perm
    exact h.nodes e he perm
  · intro bin hbin
    obtain ⟨x, hx, rfl⟩ := List.mem_map.mp hbin
    exact h.extents e he x (perm.subset hx)

/-- The binning is walked through every extent of every node, and each of them once. -/
theorem perm_pairs (hb : b.WellFormed) (h : b.items = .ok bins) :
    (bins.map fun bin => (bin.location, bin.extent)).Perm b.pairs := by
  have perm := perm_flatMap_items hb h fun bin => [(bin.location, bin.extent)]
  unfold pairs
  simpa only [List.map_eq_flatMap] using perm

end Binning

/-! ## Ranges that fit -/

/-- Each range overlaps its extent, where ids and keys can be compared with each other. Then the
range has a part in the extent, and every list of the extents can be put in order. -/
structure Assignment.Fit (as : List Assignment) : Prop where
  ids : ∀ a ∈ as, ∃ id, a.extent.tableId = .text id
  keys : OneSort (as.flatMap fun a => a.extent.rows.keys ++ a.range.keys)
  overlaps : ∀ a ∈ as, a.extent.rows.overlaps? a.range = .ok true

/-- Any keys of two assignments can be compared, those of the extents as well as those of the
ranges. -/
theorem Assignment.Fit.alikeKeys {as : List Assignment} (h : Fit as) {a a' : Assignment}
    (ha : a ∈ as) (ha' : a' ∈ as) {xs ys : List RowKey}
    (hx : xs ⊆ a.extent.rows.keys ++ a.range.keys)
    (hy : ys ⊆ a'.extent.rows.keys ++ a'.range.keys) : alikeKeys xs ys = true :=
  h.keys.alikeKeys (fun _ hk => List.mem_flatMap.mpr ⟨a, ha, hx hk⟩)
    fun _ hk => List.mem_flatMap.mpr ⟨a', ha', hy hk⟩

/-- Extents that ranges fit can be sorted: the ids are texts, and the ends are among keys that can
be compared. -/
theorem Assignment.Fit.comparable {as : List Assignment} (h : Fit as) {a a' : Assignment}
    (ha : a ∈ as) (ha' : a' ∈ as) : a.extent.comparable a'.extent = true := by
  -- extents of one table are compared by their last rows, others by their tables
  by_cases same : (a.extent.tableId == a'.extent.tableId) = true
  · have lasts (a : Assignment) : a.extent.last.toList ⊆ a.extent.rows.keys ++ a.range.keys :=
      List.subset_append_of_subset_left _ a.extent.last_subset_keys
    exact Extent.comparable_of_alike same (h.alikeKeys ha ha' (lasts a) (lasts a'))
  · obtain ⟨s, hs⟩ := h.ids _ ha
    obtain ⟨t, ht⟩ := h.ids _ ha'
    unfold Extent.comparable
    rw [if_neg same, hs, ht, Json.before?]
    rfl

/-- That ranges fit is about what is added as well as about what the binning holds, because the
latter means the same as the former. -/
theorem Assignment.Fit.ofAssignments {as : List Assignment} (h : Fit as) :
    Fit (Binning.ofAssignments as).assignments where
  ids := by
    intro a ha
    obtain ⟨a', ha', -, extent, -⟩ := Binning.exists_of_mem_assignments ha
    obtain ⟨id, text⟩ := h.ids a' ha'
    have same : a'.extent.identity = a.extent.identity := of_decide_eq_true extent
    have canonical : a'.extent.tableId.canonical = a.extent.tableId.canonical :=
      congrArg Prod.fst same
    rw [text] at canonical
    exact ⟨id, Json.eq_text_of_canonical canonical.symm⟩
  keys := by
    -- equal extents have the same rows, so no key is new
    have held : ((Binning.ofAssignments as).assignments.flatMap fun a =>
        a.extent.rows.keys ++ a.range.keys) ⊆
        as.flatMap fun a => a.extent.rows.keys ++ a.range.keys := by
      intro k hk
      obtain ⟨a, ha, hk⟩ := List.mem_flatMap.mp hk
      obtain ⟨a', ha', -, extent, range⟩ := Binning.exists_of_mem_assignments ha
      rw [← Extent.rows_eq_of_beq extent, ← range] at hk
      exact List.mem_flatMap.mpr ⟨a', ha', hk⟩
    exact fun k hk l hl => h.keys k (held hk) l (held hl)
  overlaps := by
    intro a ha
    obtain ⟨a', ha', -, extent, range⟩ := Binning.exists_of_mem_assignments ha
    rw [← Extent.rows_eq_of_beq extent, ← range]
    exact h.overlaps a' ha'

theorem Json.comparable_text (s t : String) : comparable (.text s) (.text t) = true := by
  unfold comparable
  rw [before?, Option.isSome_some, Bool.or_true]

namespace Binning

variable {b : Binning} {e : Address × Ledger Extent (List KeyRange)}
  {x : Extent × List KeyRange} {r : KeyRange}

theorem mem_assignments (he : e ∈ b.bins) (hx : x ∈ e.2) (hr : r ∈ x.2) :
    ⟨e.1, x.1, r⟩ ∈ b.assignments := by
  refine List.mem_flatMap.mpr ⟨e, he, ?_⟩
  exact List.mem_flatMap.mpr ⟨x, hx, List.mem_map_of_mem hr⟩

/-- What is in a bin of a node has been assigned, to the extent of that bin. -/
theorem mem_assignments_of_binsAt {node : Address} {bins : List Bin}
    (h : b.binsAt node = .ok bins) {bin : Bin} (hb : bin ∈ bins) (hr : r ∈ bin.ranges) :
    ∃ a ∈ b.assignments, a.extent = bin.extent ∧ a.range = r := by
  obtain ⟨sorted, hsorted, h⟩ := Result.bind_eq_ok.mp h
  cases h
  obtain ⟨x, hx, rfl⟩ := List.mem_map.mp hb
  have hx := (Sorting.perm_of_sort? hsorted).subset hx
  unfold extents at hx
  cases found : b.bins.get? node with
  | none => simp [found] at hx
  | some entry =>
    rw [found, Option.getD_some] at hx
    obtain ⟨location, -, he⟩ := Ledger.mem_of_get? found
    exact ⟨_, mem_assignments he hx hr, rfl, rfl⟩

/-- Where a binning has an extent, it has an assignment. -/
theorem Filled.exists_range (h : b.Filled) (he : e ∈ b.bins) (hx : x ∈ e.2) :
    ∃ r, ⟨e.1, x.1, r⟩ ∈ b.assignments := by
  obtain ⟨r, hr⟩ := List.exists_mem_of_ne_nil _ (h.extents e he x hx)
  exact ⟨r, mem_assignments he hx hr⟩

/-- The nodes are texts if what was added is on such nodes. A node that equals a text is that
text. -/
theorem exists_text_of_mem {as : List Assignment}
    (texts : ∀ a ∈ as, ∃ address, a.location = .text address) (he : e ∈ (ofAssignments as).bins) :
    ∃ address, e.1 = .text address := by
  have filled := filled_ofAssignments as
  obtain ⟨x, hx⟩ := List.exists_mem_of_ne_nil _ (filled.nodes e he)
  obtain ⟨r, hr⟩ := filled.exists_range he hx
  obtain ⟨a, ha, location, -, -⟩ := exists_of_mem_assignments hr
  obtain ⟨address, text⟩ := texts a ha
  -- an address that means the same as a text is that text
  have canonical := Json.canonical_eq_of_beq location
  rw [text] at canonical
  exact ⟨address, Json.eq_text_of_canonical canonical.symm⟩

/-- Nodes that are texts can be sorted, so the binning can be walked by them. Of other nodes there
may be some without an order. -/
theorem exists_locations (texts : ∀ e ∈ b.bins, ∃ address, e.1 = .text address) :
    ∃ nodes, b.locations = .ok nodes := by
  refine ⟨_, Sorting.sort?_of_comparable fun v hv w hw => ?_⟩
  obtain ⟨d, hd, rfl⟩ := List.mem_map.mp hv
  obtain ⟨e, he, rfl⟩ := List.mem_map.mp hw
  obtain ⟨s, hs⟩ := texts d hd
  obtain ⟨t, ht⟩ := texts e he
  rw [hs, ht]
  exact Json.comparable_text s t

/-- A node can be walked if and only if its extents can be compared. The sort compares each with
each, so no order of comparing them avoids a failure. -/
theorem exists_binsAt_iff (wellFormed : b.WellFormed) (he : e ∈ b.bins) :
    (∃ bins, b.binsAt e.1 = .ok bins) ↔ ∀ x ∈ e.2, ∀ y ∈ e.2, x.1.comparable y.1 = true := by
  constructor
  · rintro ⟨bins, h⟩
    obtain ⟨sorted, hsorted, -⟩ := Result.bind_eq_ok.mp h
    rw [extents_of_mem wellFormed he] at hsorted
    exact Sorting.comparable_of_sort? hsorted
  · intro comparable
    unfold binsAt Extent.sortOn
    rw [extents_of_mem wellFormed he, Sorting.sort?_of_comparable comparable]
    exact ⟨_, rfl⟩

/-- A binning on nodes that are texts can be walked if and only if each node can, as there is an
order of the nodes. -/
theorem exists_items_iff_binsAt (texts : ∀ e ∈ b.bins, ∃ address, e.1 = .text address) :
    (∃ bins, b.items = .ok bins) ↔ ∀ e ∈ b.bins, ∃ bins, b.binsAt e.1 = .ok bins := by
  constructor
  · rintro ⟨bins, h⟩ e he
    obtain ⟨nodes, binss, hnodes, hbinss, -⟩ := items_eq_ok_iff.mp h
    have hnode : e.1 ∈ nodes :=
      (Sorting.perm_of_sort? hnodes).mem_iff.mpr (List.mem_map_of_mem he)
    obtain ⟨here, -, walked⟩ :=
      Result.exists_of_forall₂_of_mem (Result.forall₂_of_mapM hbinss).flip hnode
    exact ⟨here, walked⟩
  · -- nodes that are texts have an order, so only the bins of a node could fail
    intro each
    obtain ⟨nodes, hnodes⟩ := exists_locations texts
    have walked : ∀ node ∈ nodes, ∃ bins, b.binsAt node = .ok bins := by
      intro node hnode
      obtain ⟨e, he, rfl⟩ := exists_of_mem_locations hnodes hnode
      exact each e he
    obtain ⟨binss, hbinss⟩ := Result.exists_mapM walked
    exact ⟨_, items_eq_ok_iff.mpr ⟨nodes, binss, hnodes, hbinss, rfl⟩⟩

/-- The bins of a node can be walked if the extents that ranges were assigned to can be compared. No
other extents are there, because none comes without a range. -/
theorem exists_binsAt_of_comparable (wellFormed : b.WellFormed) (filled : b.Filled)
    (comparable : ∀ a ∈ b.assignments, ∀ a' ∈ b.assignments,
      a.extent.comparable a'.extent = true)
    (he : e ∈ b.bins) : ∃ bins, b.binsAt e.1 = .ok bins := by
  rw [exists_binsAt_iff wellFormed he]
  intro x hx y hy
  obtain ⟨r, hr⟩ := filled.exists_range he hx
  obtain ⟨q, hq⟩ := filled.exists_range he hy
  exact comparable _ hr _ hq

section

variable (wellFormed : b.WellFormed) (fit : Assignment.Fit b.assignments)
include wellFormed fit

/-- The bins of a node can be walked if the ranges fit, because then its extents can be compared. -/
theorem exists_binsAt (filled : b.Filled) (he : e ∈ b.bins) :
    ∃ bins, b.binsAt e.1 = .ok bins :=
  exists_binsAt_of_comparable wellFormed filled
    (fun _ ha _ ha' => fit.comparable ha ha') he

/-- Every range of a node has a part in its extent, so making the parts does not fail. -/
theorem exists_parts (he : e ∈ b.bins) {bins : List Bin} (hbins : b.binsAt e.1 = .ok bins) :
    ∃ pss, bins.mapM Splitting.parts = .ok pss := by
  obtain ⟨sorted, perm, rfl⟩ := binsAt_eq_ok wellFormed he hbins
  refine Result.exists_mapM fun bin hbin => ?_
  obtain ⟨x, hx, rfl⟩ := List.mem_map.mp hbin
  refine Result.exists_mapM fun r hr => ?_
  -- the range was added to this extent, which it overlaps
  have added := mem_assignments he (perm.subset hx) hr
  have alike := fit.alikeKeys added added (List.subset_append_left _ _)
    (List.subset_append_right _ _)
  exact KeyRange.exists_clip alike (fit.overlaps _ added)

end

end Binning

end ScanPlanner
