import ScanPlanner.Proofs.Fitting
import ScanPlanner.Proofs.TabletRecord
import ScanPlanner.Proofs.TakingOffline

/-!
# Binnings told by what was added

Ranges for several extents may come in any order. All that a binning keeps of that order is, for
each extent on each node, the order of the ranges that were assigned there (`Assignment.added`):
binnings are the same if and only if they agree on these (`Binning.same_iff`). The order in which
nodes and extents came is seen neither in that nor in a walk (`Binning.Walk`), unless two extents of
a node tie (`Binning.build_interleaved`). To be walked at all, the extents on a node have to be
comparable (`Binning.exists_items_iff`): keys of different sorts, such as in `Binning.unlikeEnds`,
have no order. -/

namespace ScanPlanner

/-! ## Ledgers with the same entries -/

namespace Ledger

variable {κ ν : Type} [BEq κ]

/-- The first entry and the others are looked up separately. On the other side the entry of the same
key is erased, wherever it stands there. -/
theorem forall_rel_cons_iff [EquivBEq κ] {R : ν → ν → Prop} {k : κ} {v : ν} {rest b : Ledger κ ν}
    (ha : Distinct ((k, v) :: rest)) (hb : b.Distinct) :
    (∀ key, Option.Rel R (get? ((k, v) :: rest) key) (b.get? key)) ↔
      ∃ w, b.get? k = some w ∧ R v w ∧
        ∀ key, Option.Rel R (rest.get? key) ((b.erase k).get? key) := by
  obtain ⟨head, -⟩ := distinct_cons.mp ha
  constructor
  · intro h
    -- the first key has an entry on both sides, or none could be related to it
    have own := h k
    rw [get?_cons_self] at own
    cases found : b.get? k with
    | none =>
      rw [found] at own
      cases own
    | some w =>
      rw [found] at own
      cases own with
      | some related =>
        refine ⟨w, rfl, related, fun key => ?_⟩
        by_cases same : (k == key) = true
        · rw [← get?_congr _ same, ← get?_congr _ same, get?_erase_self hb,
            get?_eq_none fun e he => BEq.symm_false (head e he)]
          exact .none
        · rw [Bool.not_eq_true] at same
          rw [get?_erase_of_ne _ same, ← get?_cons_of_ne same v]
          exact h key
  · rintro ⟨w, found, related, others⟩ key
    by_cases same : (k == key) = true
    · rw [← get?_congr _ same, ← get?_congr b same, get?_cons_self, found]
      exact .some related
    · rw [Bool.not_eq_true] at same
      rw [get?_cons_of_ne same, ← get?_erase_of_ne b same]
      exact others key

end Ledger

namespace Binning

section

variable {κ ν : Type} [BEq κ] [EquivBEq κ] {same : ν → ν → Bool}

/-- A ledger has the same entries as another one if its first key is found there with the same
value, and the rest has the same entries as the other one without that key. -/
theorem sameEntries_cons_iff {k : κ} {v : ν} {rest b : Ledger κ ν}
    (ha : Ledger.Distinct ((k, v) :: rest)) :
    sameEntries same ((k, v) :: rest) b = true ↔
      ∃ w, b.get? k = some w ∧ same v w = true ∧ sameEntries same rest (b.erase k) = true := by
  obtain ⟨head, -⟩ := Ledger.distinct_cons.mp ha
  -- no later entry has the first key, so taking it away changes nothing for them
  have others : within same rest (b.erase k) = within same rest b := by
    unfold within
    rw [Bool.eq_iff_iff, List.all_eq_true, List.all_eq_true]
    refine forall₂_congr fun e he => ?_
    rw [Ledger.get?_erase_of_ne b (head e he)]
  unfold sameEntries
  rw [others]
  unfold within
  rw [List.all_cons]
  cases found : b.get? k with
  | none => simp
  | some w =>
    have length := Ledger.length_erase found
    simp only [Bool.and_eq_true, beq_iff_eq, List.length_cons, Option.some.injEq, exists_eq_left']
    constructor
    · rintro ⟨count, first, rest⟩
      exact ⟨first, by omega, rest⟩
    · rintro ⟨first, count, rest⟩
      exact ⟨by omega, first, rest⟩

/-- Two ledgers have the same entries if every key is looked up with the same result. So the order
of the entries does not count, and neither does which of several equal keys they have. -/
theorem sameEntries_iff {a b : Ledger κ ν} (ha : a.Distinct) (hb : b.Distinct) :
    sameEntries same a b = true ↔
      ∀ key, Option.Rel (fun v w => same v w = true) (a.get? key) (b.get? key) := by
  -- induction on the first ledger; its first key is taken out of both
  induction a generalizing b with
  | nil =>
    unfold sameEntries within
    rw [List.all_nil, Bool.and_true, List.length_nil, beq_iff_eq]
    constructor
    · intro count key
      rw [List.length_eq_zero_iff.mp count.symm]
      exact .none
    · intro h
      have none : b = [] := Ledger.eq_nil_of_get? fun key => by
        have related := h key
        cases found : b.get? key with
        | none => rfl
        | some w =>
          rw [found] at related
          cases related
      rw [none, List.length_nil]
  | cons entry rest ih =>
    obtain ⟨k, v⟩ := entry
    have tail := (Ledger.distinct_cons.mp ha).2
    have less := hb.sublist (Ledger.erase_sublist b k)
    rw [sameEntries_cons_iff ha, Ledger.forall_rel_cons_iff ha hb]
    simp only [ih tail less]

end

/-! ## Binnings that are the same -/

/-- If no extent has an empty list of ranges, a missing list may be taken for an empty one. That is
how ranges are looked up. -/
theorem rel_iff_getD {o o' : Option (List KeyRange)} (ho : o ≠ some []) (ho' : o' ≠ some []) :
    Option.Rel (fun xs ys => (xs == ys) = true) o o' ↔ (o.getD [] == o'.getD []) = true := by
  -- a list that is there is not empty, so it is told apart from one that is missing
  cases o with
  | none => cases o' with
    | none => exact iff_of_true .none rfl
    | some ys => cases ys with
      | nil => exact absurd rfl ho'
      | cons y ys => exact iff_of_false nofun (by simp)
  | some xs => cases o' with
    | none => cases xs with
      | nil => exact absurd rfl ho
      | cons x xs => exact iff_of_false nofun (by simp)
    | some ys =>
      constructor
      · intro related
        cases related with
        | some same => exact same
      · exact fun same => .some same

/-- The extents of a node have the same ranges if every extent is looked up with the same ranges. -/
theorem sameExtents_iff {es es' : Ledger Extent (List KeyRange)} (hd : es.Distinct)
    (hd' : es'.Distinct) (filled : ∀ x ∈ es, x.2 ≠ []) (filled' : ∀ x ∈ es', x.2 ≠ []) :
    sameEntries (fun xs ys => xs == ys) es es' = true ↔
      ∀ e, ((es.get? e).getD [] == (es'.get? e).getD []) = true := by
  have nonempty {es : Ledger Extent (List KeyRange)} (filled : ∀ x ∈ es, x.2 ≠ []) (e : Extent) :
      es.get? e ≠ some [] := by
    intro found
    obtain ⟨k, -, mem⟩ := Ledger.mem_of_get? found
    exact filled _ mem rfl
  rw [sameEntries_iff hd hd']
  exact forall_congr' fun e => rel_iff_getD (nonempty filled e) (nonempty filled' e)

/-- A node that is there has an extent with a range, because it came with an assignment. -/
theorem exists_range_of_get? {b : Binning} (hb : b.WellFormed) (fb : b.Filled)
    {location : Address} {es : Ledger Extent (List KeyRange)}
    (found : b.bins.get? location = some es) :
    es.Distinct ∧ (∀ x ∈ es, x.2 ≠ []) ∧ ∃ e r rs, es.get? e = some (r :: rs) := by
  obtain ⟨k, -, mem⟩ := Ledger.mem_of_get? found
  refine ⟨hb.extents _ mem, fb.extents _ mem, ?_⟩
  obtain ⟨⟨e, rs⟩, hx⟩ := List.exists_mem_of_ne_nil _ (fb.nodes _ mem)
  obtain ⟨r, rs, rfl⟩ := List.exists_cons_of_ne_nil (fb.extents _ mem _ hx)
  exact ⟨e, r, rs, Ledger.get?_of_mem (hb.extents _ mem) hx BEq.rfl⟩

/-- Two binnings are the same if each extent on each node has the same ranges. Nodes without extents
would tell them apart otherwise, but there are none. -/
theorem same_iff {a b : Binning} (ha : a.WellFormed) (hb : b.WellFormed) (fa : a.Filled)
    (fb : b.Filled) : a.same b = true ↔
      ∀ location extent, (a.ranges location extent == b.ranges location extent) = true := by
  unfold same
  rw [sameEntries_iff ha.nodes hb.nodes]
  refine forall_congr' fun location => ?_
  unfold ranges extents
  -- a node that is there has a range, so it is not the same as one that is not
  cases here : a.bins.get? location with
  | none => cases there : b.bins.get? location with
    | none => exact iff_of_true .none fun _ => rfl
    | some es' =>
      obtain ⟨-, -, e, r, rs, found⟩ := exists_range_of_get? hb fb there
      refine iff_of_false nofun fun h => ?_
      have apart := h e
      simp [found] at apart
  | some es => cases there : b.bins.get? location with
    | none =>
      obtain ⟨-, -, e, r, rs, found⟩ := exists_range_of_get? ha fa here
      refine iff_of_false nofun fun h => ?_
      have apart := h e
      simp [found] at apart
    | some es' =>
      obtain ⟨hd, filled, -⟩ := exists_range_of_get? ha fa here
      obtain ⟨hd', filled', -⟩ := exists_range_of_get? hb fb there
      rw [Option.getD_some, Option.getD_some, ← sameExtents_iff hd hd' filled filled']
      constructor
      · intro related
        cases related with
        | some same => exact same
      · exact fun same => .some same

end Binning

/-! ## What was added -/

namespace Assignment

/-- The ranges that were assigned to an extent on a node, in the order in which they came. -/
def added (as : List Assignment) (location : Address) (extent : Extent) : List KeyRange :=
  (as.filter fun a => a.location == location && a.extent == extent).map Assignment.range

/-- The node and the extent. -/
def place (a : Assignment) : Address × Extent := (a.location, a.extent)

/-- The node and the table are named by texts, and the rows of the extent are texts or numbers. Of
such assignments it can be said by their sorts alone whether they can be put in order. -/
structure IsTyped (a : Assignment) : Prop where
  node : ∃ s, a.location = .text s
  table : ∃ s, a.extent.tableId = .text s
  rows : ∀ k ∈ a.extent.rows.keys, k.kind?.isSome = true

/-- The extent of such an assignment can be looked up: its id is a text, and its rows are texts,
numbers or missing. -/
theorem IsTyped.isKey {a : Assignment} (typed : a.IsTyped) : a.extent.isKey = true := by
  obtain ⟨t, table⟩ := typed.table
  have parts {k : Option RowKey} (hk : k.toList ⊆ a.extent.rows.keys) :
      k.all RowKey.isScalar = true := by
    cases k with
    | none => rfl
    | some k => exact RowKey.isScalar_of_kind (typed.rows k (hk List.mem_cons_self))
  have prev : a.extent.prev.toList ⊆ a.extent.rows.keys := by
    rw [Extent.keys_rows]
    exact List.subset_append_left _ _
  unfold Extent.isKey
  rw [table, parts prev, parts a.extent.last_subset_keys]
  rfl

/-- The extents on each node can be compared, which is what walking the binning in order asks for.
Extents on different nodes are never compared with each other. -/
def Sortable (as : List Assignment) : Prop :=
  ∀ a ∈ as, ∀ a' ∈ as, a.location = a'.location → a.extent.comparable a'.extent = true

/-- On each node, of two different extents one comes before the other. Keys of which neither comes
first leave the order of their extents to the order in which they came. -/
def Untied (as : List Assignment) : Prop :=
  ∀ a ∈ as, ∀ a' ∈ as, a.location = a'.location → a.extent.isBefore a'.extent = false →
    a'.extent.isBefore a.extent = false → a.extent = a'.extent

/-- A place that means the same as that of an assignment is that place, as texts and keys are equal
only to themselves. -/
theorem IsTyped.place_eq {a : Assignment} (typed : a.IsTyped) {p : Address × Extent}
    (location : (a.location == p.1) = true) (extent : (a.extent == p.2) = true) :
    a.place = p := by
  obtain ⟨s, node⟩ := typed.node
  obtain ⟨t, table⟩ := typed.table
  have canonical := Json.canonical_eq_of_beq location
  rw [node] at canonical
  have same : p.1 = a.location := (Json.eq_text_of_canonical canonical.symm).trans node.symm
  exact Prod.ext same.symm (Extent.eq_of_beq_of_text (BEq.symm extent) table).symm

/-- Something has been assigned to a place exactly if ranges were added there. -/
theorem mem_places_iff {as : List Assignment} (typed : ∀ a ∈ as, a.IsTyped)
    {p : Address × Extent} : p ∈ as.map place ↔ added as p.1 p.2 ≠ [] := by
  unfold added
  rw [ne_eq, List.map_eq_nil_iff, List.filter_eq_nil_iff, not_forall]
  constructor
  · intro hp
    obtain ⟨a, ha, rfl⟩ := List.mem_map.mp hp
    refine ⟨a, fun other => other ha ?_⟩
    rw [Bool.and_eq_true]
    exact ⟨BEq.rfl, BEq.rfl⟩
  · rintro ⟨a, h⟩
    obtain ⟨ha, same⟩ := Classical.not_imp.mp h
    rw [not_not, Bool.and_eq_true] at same
    exact List.mem_map.mpr ⟨a, ha, (typed a ha).place_eq same.1 same.2⟩

end Assignment

/-- The node and the extent of a bin. -/
def Bin.place (bin : Bin) : Address × Extent := (bin.location, bin.extent)

namespace Binning

/-- The binning that is built by assigning ranges one by one. It ends with a failure as soon as a
node or an extent cannot be looked up. -/
def build (as : List Assignment) : Result Binning :=
  as.foldlM (fun b a => b.assign a.location a.extent a.range) .empty

variable {as bs : List Assignment} {bins : List Bin}

/-- Assigning typed ranges one by one does not fail, and the binning is the one of these
assignments. -/
theorem build_eq_ok (typed : ∀ a ∈ as, a.IsTyped) : build as = .ok (ofAssignments as) := by
  have each : ∀ a ∈ as, ∀ b : Binning,
      b.assign a.location a.extent a.range = .ok (b.addAll [a]) := by
    intro a ha b
    obtain ⟨s, node⟩ := (typed a ha).node
    exact assign_of_isKey b a.range (by rw [node]; rfl) (typed a ha).isKey
  have all := foldlM_eq_addAll each .empty
  rw [List.flatMap_singleton'] at all
  exact all

/-- Ranges that are found on an extent of a node are at a place that means the same. -/
theorem exists_pair_of_ranges {b : Binning} {location : Address} {extent : Extent}
    (h : b.ranges location extent ≠ []) :
    ∃ p ∈ b.pairs, (location == p.1) = true ∧ (extent == p.2) = true := by
  unfold ranges extents at h
  -- without the node or without the extent there would be no range
  cases here : b.bins.get? location with
  | none =>
    rw [here] at h
    exact absurd rfl h
  | some es =>
    rw [here, Option.getD_some] at h
    cases found : es.get? extent with
    | none =>
      rw [found] at h
      exact absurd rfl h
    | some rs =>
      obtain ⟨k, hk, mem⟩ := Ledger.mem_of_get? here
      obtain ⟨e, he, mem'⟩ := Ledger.mem_of_get? found
      exact ⟨(k, e), List.mem_flatMap.mpr ⟨_, mem, List.mem_map.mpr ⟨_, mem', rfl⟩⟩,
        BEq.symm hk, BEq.symm he⟩

/-- The places in a binning are those that something was assigned to. No place is made up, and none
is left without ranges. -/
theorem mem_pairs_iff (typed : ∀ a ∈ as, a.IsTyped) {p : Address × Extent} :
    p ∈ (ofAssignments as).pairs ↔ p ∈ as.map Assignment.place := by
  constructor
  · intro hp
    obtain ⟨e, he, hp⟩ := List.mem_flatMap.mp hp
    obtain ⟨x, hx, rfl⟩ := List.mem_map.mp hp
    obtain ⟨r, hr⟩ := (filled_ofAssignments as).exists_range he hx
    obtain ⟨a, ha, location, extent, -⟩ := exists_of_mem_assignments hr
    exact List.mem_map.mpr ⟨a, ha, (typed a ha).place_eq location extent⟩
  · intro hp
    have held := (Assignment.mem_places_iff typed).mp hp
    obtain ⟨a, ha, rfl⟩ := List.mem_map.mp hp
    rw [← show _ = Assignment.added as _ _ from ranges_ofAssignments as _ _] at held
    obtain ⟨q, hq, location, extent⟩ := exists_pair_of_ranges held
    rwa [← (typed a ha).place_eq location extent] at hq

/-! ## Walking in order -/

/-- Where a node comes in the order. -/
def nodeRank : Address → String
  | .text s => s
  | _ => ""

/-- The nodes are walked in strictly ascending order. No node comes twice, since each has one
entry. -/
theorem pairwise_locations {b : Binning} (hb : b.WellFormed)
    (texts : ∀ e ∈ b.bins, ∃ s, e.1 = .text s) {nodes : List Address}
    (h : b.locations = .ok nodes) : nodes.Pairwise fun v w => v.isBefore w = true := by
  have perm : nodes.Perm b.bins.keys := Sorting.perm_of_sort? h
  have texts : ∀ v ∈ b.bins.keys, ∃ s, v = .text s := by
    intro v hv
    obtain ⟨e, he, rfl⟩ := List.mem_map.mp hv
    exact texts e he
  -- nodes that are sorted ascend, and since no two are equal they do so strictly
  have ascending : nodes.Pairwise fun v w => nodeRank v ≤ nodeRank w := by
    refine Sorting.pairwise_of_sort? nodeRank (fun v hv w hw => ?_) h
    obtain ⟨s, rfl⟩ := texts v hv
    obtain ⟨t, rfl⟩ := texts w hw
    rw [Json.isBefore_text, Bool.not_eq_true', decide_eq_false_iff_not, not_lt]
    exact Iff.rfl
  have distinct : nodes.Pairwise fun v w => (v == w) = false :=
    List.Pairwise.perm hb.nodes perm.symm fun ne => BEq.symm_false ne
  refine (ascending.and distinct).imp_of_mem fun {v w} hv hw h => ?_
  obtain ⟨s, rfl⟩ := texts v (perm.subset hv)
  obtain ⟨t, rfl⟩ := texts w (perm.subset hw)
  obtain ⟨le, ne⟩ := h
  rw [Json.text_beq_text, decide_eq_false_iff_not] at ne
  rw [Json.isBefore_text, decide_eq_true_eq]
  exact lt_of_le_of_ne le ne

/-- The bins of a node are walked in the order of their extents, each once. Extents that end at the
same row tie: neither is before the other one, and they still differ. -/
theorem pairwise_binsAt {b : Binning} (hb : b.WellFormed)
    {e : Address × Ledger Extent (List KeyRange)} (he : e ∈ b.bins)
    (texts : ∀ x ∈ e.2, ∃ s, x.1.tableId = .text s) (h : b.binsAt e.1 = .ok bins) :
    bins.Pairwise fun p q => p.extent ≠ q.extent ∧ q.extent.isBefore p.extent = false := by
  obtain ⟨sorted, hsorted, h⟩ := Result.bind_eq_ok.mp h
  cases h
  rw [extents_of_mem hb he] at hsorted
  have perm : sorted.Perm e.2 := Sorting.perm_of_sort? hsorted
  have order : sorted.Pairwise fun x y => x.1.rank ≤ y.1.rank := by
    refine Sorting.pairwise_of_sort? (fun x : Extent × List KeyRange => x.1.rank)
      (fun x hx y hy => ?_) hsorted
    rw [← not_lt, ← Extent.isBefore_iff_rank_lt (texts y hy) (texts x hx), Bool.not_eq_true,
      Bool.not_eq_true']
  -- an extent has one entry on its node
  have distinct : sorted.Pairwise fun x y => (x.1 == y.1) = false := by
    have apart := (hb.extents e he).perm perm
    unfold Ledger.Distinct Ledger.keys at apart
    rwa [List.pairwise_map] at apart
  rw [List.pairwise_map]
  refine (order.and distinct).imp_of_mem fun {x y} hx hy h => ⟨fun same => ?_, ?_⟩
  · have ne := h.2
    have same : x.1 = y.1 := same
    rw [same, BEq.rfl] at ne
    cases ne
  · rw [← Bool.not_eq_true,
      Extent.isBefore_iff_rank_lt (texts y (perm.subset hy)) (texts x (perm.subset hx)), not_lt]
    exact h.1

/-- What comes of walking in order a binning of what was assigned. -/
structure Walk (as : List Assignment) (bins : List Bin) : Prop where
  /-- Nodes come in ascending order, and the extents of a node in theirs. -/
  ascending : bins.Pairwise fun p q => p.location.isBefore q.location = true ∨
    p.location = q.location ∧ q.extent.isBefore p.extent = false
  /-- No extent comes twice on a node. -/
  once : (bins.map Bin.place).Nodup
  /-- What comes is what something was assigned to. -/
  listed : ∀ p, p ∈ bins.map Bin.place ↔ p ∈ as.map Assignment.place
  /-- Each extent comes with the ranges that were assigned to it there, in the order in which they
  came. -/
  ranges : ∀ bin ∈ bins, bin.ranges = Assignment.added as bin.location bin.extent

/-- The nodes and the tables of the binning are texts, as those of the assignments are. -/
theorem exists_text_of_typed (typed : ∀ a ∈ as, a.IsTyped)
    {e : Address × Ledger Extent (List KeyRange)} (he : e ∈ (ofAssignments as).bins) :
    (∃ s, e.1 = .text s) ∧ ∀ x ∈ e.2, ∃ s, x.1.tableId = .text s := by
  -- an entry stands for an assignment, which is typed
  have text {x : Extent × List KeyRange} (hx : x ∈ e.2) :
      (∃ s, e.1 = .text s) ∧ ∃ s, x.1.tableId = .text s := by
    have pair : (e.1, x.1) ∈ (ofAssignments as).pairs :=
      List.mem_flatMap.mpr ⟨e, he, List.mem_map.mpr ⟨x, hx, rfl⟩⟩
    obtain ⟨a, ha, place⟩ := List.mem_map.mp ((mem_pairs_iff typed).mp pair)
    have node : a.location = e.1 := congrArg Prod.fst place
    have extent : a.extent = x.1 := congrArg Prod.snd place
    rw [← node, ← extent]
    exact ⟨(typed a ha).node, (typed a ha).table⟩
  obtain ⟨x, hx⟩ := List.exists_mem_of_ne_nil _ ((filled_ofAssignments as).nodes e he)
  exact ⟨(text hx).1, fun x hx => (text hx).2⟩

/-- A bin has the ranges that are found on its extent of its node. This is what the walk has in
common with equality. -/
theorem ranges_of_mem_binsAt {b : Binning} (hb : b.WellFormed) {node : Address}
    (h : b.binsAt node = .ok bins) :
    ∀ bin ∈ bins, bin.ranges = b.ranges bin.location bin.extent := by
  obtain ⟨sorted, hsorted, h⟩ := Result.bind_eq_ok.mp h
  cases h
  intro bin hbin
  obtain ⟨x, hx, rfl⟩ := List.mem_map.mp hbin
  have hx := (Sorting.perm_of_sort? hsorted).subset hx
  unfold ranges
  unfold extents at hx ⊢
  -- the bins come from the entry of the node, and so do its ranges
  cases here : b.bins.get? node with
  | none =>
    rw [here] at hx
    cases hx
  | some es =>
    rw [here, Option.getD_some] at hx
    obtain ⟨k, -, mem⟩ := Ledger.mem_of_get? here
    simp only [Option.getD_some, Ledger.get?_of_mem (hb.extents _ mem) hx BEq.rfl]

/-- What each part of a list of lists has, and what relates each part to the next ones, makes the
items pairwise related: two items of one part by the first, two of different parts by the second. -/
theorem pairwise_flatten_of_forall₂ {α β : Type} {S : α → List β → Prop} {R : α → α → Prop}
    {Q : β → β → Prop} {xs : List α} {yss : List (List β)} (h : List.Forall₂ S xs yss)
    (order : xs.Pairwise R) (within : ∀ x ∈ xs, ∀ ys, S x ys → ys.Pairwise Q)
    (across : ∀ x ys x' ys', S x ys → S x' ys' → R x x' → ∀ y ∈ ys, ∀ y' ∈ ys', Q y y') :
    yss.flatten.Pairwise Q := by
  induction h with
  | nil => exact .nil
  | @cons x ys xs yss head tail ih =>
    obtain ⟨first, order⟩ := List.pairwise_cons.mp order
    obtain ⟨own, within⟩ := List.forall_mem_cons.mp within
    rw [List.flatten_cons, List.pairwise_append]
    refine ⟨own ys head, ih order within, fun y hy y' hy' => ?_⟩
    obtain ⟨ys', hys', hy'⟩ := List.mem_flatten.mp hy'
    obtain ⟨x', hx', head'⟩ := Result.exists_of_forall₂_of_mem tail hys'
    exact across x ys x' ys' head head' (first x' hx') y hy y' hy'

/-- Nodes are walked in ascending order, and the extents of a node in theirs, each once. So each
place comes once. -/
theorem pairwise_items (typed : ∀ a ∈ as, a.IsTyped) (h : (ofAssignments as).items = .ok bins) :
    bins.Pairwise fun p q => p.location.isBefore q.location = true ∨
      p.location = q.location ∧ p.extent ≠ q.extent ∧ q.extent.isBefore p.extent = false := by
  have wellFormed := wellFormed_ofAssignments as
  obtain ⟨nodes, binss, hnodes, hbinss, rfl⟩ := items_eq_ok_iff.mp h
  have ascending := pairwise_locations wellFormed
    (fun e he => (exists_text_of_typed typed he).1) hnodes
  -- within a node the extents decide, and between nodes the nodes
  refine pairwise_flatten_of_forall₂ (Result.forall₂_of_mapM hbinss) ascending
    (fun node hnode bins here => ?_)
    fun node bins node' bins' here here' before p hp q hq => .inl ?_
  · obtain ⟨e, he, rfl⟩ := exists_of_mem_locations hnodes hnode
    have own := location_of_binsAt here
    have order := pairwise_binsAt wellFormed he (exists_text_of_typed typed he).2 here
    refine order.imp_of_mem fun {p q} hp hq h => .inr ⟨?_, h⟩
    rw [own p hp, own q hq]
  · rwa [location_of_binsAt here p hp, location_of_binsAt here' q hq]

/-- If the binning can be walked, the walk goes through the places of the assignments, each once and
in order, with the ranges that were added there. -/
theorem walk_of_items (typed : ∀ a ∈ as, a.IsTyped) (h : (ofAssignments as).items = .ok bins) :
    Walk as bins := by
  have wellFormed := wellFormed_ofAssignments as
  have order := pairwise_items typed h
  -- the places of the bins are those of the binning, and these are the places assigned to
  have listed (p : Address × Extent) : p ∈ bins.map Bin.place ↔ p ∈ as.map Assignment.place :=
    (perm_pairs wellFormed h).mem_iff.trans (mem_pairs_iff typed)
  refine ⟨order.imp fun h => h.imp_right fun h => ⟨h.1, h.2.2⟩, ?_, listed, fun bin hbin => ?_⟩
  · unfold List.Nodup
    rw [List.pairwise_map]
    refine order.imp_of_mem fun {p q} hp hq h same => ?_
    rcases h with before | ⟨-, ne, -⟩
    · have there : p.location = q.location := congrArg Prod.fst same
      obtain ⟨a, ha, place⟩ := List.mem_map.mp ((listed _).mp (List.mem_map_of_mem hq))
      obtain ⟨s, node⟩ := (typed a ha).node
      have text : q.location = .text s := (congrArg Prod.fst place).symm.trans node
      rw [there, text, Json.isBefore_text, decide_eq_true_eq] at before
      exact lt_irrefl s before
    · exact ne (congrArg Prod.snd same)
  · obtain ⟨node, here, walked, hbin⟩ := exists_binsAt_of_items h hbin
    rw [ranges_of_mem_binsAt wellFormed walked bin hbin]
    exact ranges_ofAssignments as _ _

/-- The extents on each node are those that were assigned to it, so they can be sorted if and only
if the assigned ones can. -/
theorem sortable_iff (typed : ∀ a ∈ as, a.IsTyped) :
    Assignment.Sortable as ↔
      ∀ e ∈ (ofAssignments as).bins, ∀ x ∈ e.2, ∀ y ∈ e.2, x.1.comparable y.1 = true := by
  have wellFormed := wellFormed_ofAssignments as
  constructor
  · intro sortable e he x hx y hy
    have pair {x : Extent × List KeyRange} (hx : x ∈ e.2) : (e.1, x.1) ∈ as.map Assignment.place :=
      (mem_pairs_iff typed).mp (List.mem_flatMap.mpr ⟨e, he, List.mem_map.mpr ⟨x, hx, rfl⟩⟩)
    obtain ⟨a, ha, place⟩ := List.mem_map.mp (pair hx)
    obtain ⟨a', ha', place'⟩ := List.mem_map.mp (pair hy)
    have extent : a.extent = x.1 := congrArg Prod.snd place
    have extent' : a'.extent = y.1 := congrArg Prod.snd place'
    rw [← extent, ← extent']
    exact sortable a ha a' ha' ((congrArg Prod.fst place).trans (congrArg Prod.fst place').symm)
  · intro each a ha a' ha' node
    obtain ⟨e, he, hx⟩ := List.mem_flatMap.mp ((mem_pairs_iff typed).mpr (List.mem_map_of_mem ha))
    obtain ⟨e', he', hy⟩ :=
      List.mem_flatMap.mp ((mem_pairs_iff typed).mpr (List.mem_map_of_mem ha'))
    obtain ⟨x, hx, place⟩ := List.mem_map.mp hx
    obtain ⟨y, hy, place'⟩ := List.mem_map.mp hy
    have extent : x.1 = a.extent := congrArg Prod.snd place
    have extent' : y.1 = a'.extent := congrArg Prod.snd place'
    have same : e.1 = e'.1 :=
      (congrArg Prod.fst place).trans (node.trans (congrArg Prod.fst place').symm)
    -- one node has one entry
    have entry : e.2 = e'.2 := by
      rw [← extents_of_mem wellFormed he, same, extents_of_mem wellFormed he']
    rw [← extent, ← extent']
    exact each e he x hx y (entry ▸ hy)

/-- A binning can be walked in order if and only if the extents on each node can be compared. -/
theorem exists_items_iff (typed : ∀ a ∈ as, a.IsTyped) :
    (∃ bins, (ofAssignments as).items = .ok bins) ↔ Assignment.Sortable as := by
  have wellFormed := wellFormed_ofAssignments as
  rw [sortable_iff typed,
    exists_items_iff_binsAt fun e he => (exists_text_of_typed typed he).1]
  exact forall₂_congr fun e he => exists_binsAt_iff wellFormed he

/-- A binning that cannot be walked in order has nodes or extents without an order. -/
theorem eq_unlike_of_items {b : Binning} {f : Failure} (h : b.items = .error f) : f = .unlike := by
  rcases Result.bind_eq_error.mp h with unsorted | ⟨nodes, -, h⟩
  · exact Sorting.eq_unlike_of_sort? unsorted
  rcases Result.bind_eq_error.mp h with h | ⟨_, -, h⟩
  · obtain ⟨node, -, h⟩ := Result.exists_of_mapM_eq_error h
    rcases Result.bind_eq_error.mp h with unsorted | ⟨_, -, h⟩
    · exact Sorting.eq_unlike_of_sort? unsorted
    · cases h
  · cases h

/-- If the extents on some node cannot be compared, the binning is neither walked in order nor are
its ranges counted, since counting walks. -/
theorem items_eq_unlike (typed : ∀ a ∈ as, a.IsTyped) (unsortable : ¬ Assignment.Sortable as) :
    (ofAssignments as).items = .error .unlike ∧ (ofAssignments as).numRanges = .error .unlike := by
  have failed : (ofAssignments as).items = .error .unlike := by
    cases h : (ofAssignments as).items with
    | ok bins => exact absurd ((exists_items_iff typed).mp ⟨bins, h⟩) unsortable
    | error f => rw [eq_unlike_of_items h]
  refine ⟨failed, ?_⟩
  unfold numRanges
  rw [failed]
  rfl

/-- If the binning can be walked, the ranges that it counts are all that were assigned: adding
neither drops nor doubles any. -/
theorem numRanges_of_items (h : (ofAssignments as).items = .ok bins) :
    (ofAssignments as).numRanges = .ok as.length := by
  have count := (perm_ofAssignments (g := fun _ => ()) (fun _ _ _ _ _ => rfl) as).length_eq
  have walked := (perm_items (wellFormed_ofAssignments as) h).length_eq
  have held : (bins.flatMap Bin.ranges).length = (bins.flatMap Bin.assignments).length := by
    unfold Bin.assignments
    simp only [List.length_flatMap, List.length_map]
  unfold numRanges
  rw [h, Result.bind_ok, held, walked]
  simpa using count

end Binning

/-! ## Any order of adding -/

/-- Two bins for the same extent on the same node, with the same ranges. -/
structure Bin.Same (p q : Bin) : Prop where
  location : p.location = q.location
  extent : p.extent = q.extent
  ranges : (p.ranges == q.ranges) = true

namespace Assignment

variable {as bs : List Assignment}

/-- What has the same ranges everywhere has been assigned to the same places. -/
theorem mem_places_congr (typed : ∀ a ∈ as, a.IsTyped) (typed' : ∀ a ∈ bs, a.IsTyped)
    (agree : ∀ location extent, (added as location extent == added bs location extent) = true)
    (p : Address × Extent) : p ∈ as.map place ↔ p ∈ bs.map place := by
  rw [mem_places_iff typed, mem_places_iff typed']
  have same := agree p.1 p.2
  cases here : added as p.1 p.2 <;> cases there : added bs p.1 p.2 <;> simp_all

/-- Extents can be compared if they stand at places whose extents can. The ranges do not matter for
this, nor how often something is assigned. -/
theorem Sortable.of_places (h : Sortable as) (sub : ∀ p ∈ bs.map place, p ∈ as.map place) :
    Sortable bs := by
  intro a ha a' ha' node
  obtain ⟨c, hc, place⟩ := List.mem_map.mp (sub _ (List.mem_map_of_mem ha))
  obtain ⟨c', hc', place'⟩ := List.mem_map.mp (sub _ (List.mem_map_of_mem ha'))
  have extent : c.extent = a.extent := congrArg Prod.snd place
  have extent' : c'.extent = a'.extent := congrArg Prod.snd place'
  rw [← extent, ← extent']
  exact h c hc c' hc' ((congrArg Prod.fst place).trans (node.trans (congrArg Prod.fst place').symm))

end Assignment

namespace Binning

variable {as bs : List Assignment} {bins bins' : List Bin}

/-- Where no two extents of a node tie, there is one order to walk in. So two walks over the same
places come to them in the same order. -/
theorem Walk.places_eq (typed : ∀ a ∈ as, a.IsTyped) (untied : Assignment.Untied as)
    (places : ∀ p, p ∈ as.map Assignment.place ↔ p ∈ bs.map Assignment.place)
    (walk : Walk as bins) (walk' : Walk bs bins') : bins.map Bin.place = bins'.map Bin.place := by
  have perm : (bins.map Bin.place).Perm (bins'.map Bin.place) :=
    (List.perm_ext_iff_of_nodup walk.once walk'.once).mpr fun p =>
      (walk.listed p).trans ((places p).trans (walk'.listed p).symm)
  have order {as : List Assignment} {bins : List Bin} (walk : Walk as bins) :
      (bins.map Bin.place).Pairwise fun p q => p.1.isBefore q.1 = true ∨
        p.1 = q.1 ∧ q.2.isBefore p.2 = false := by
    rw [List.pairwise_map]
    exact walk.ascending
  refine List.Perm.eq_of_pairwise (fun p q hp hq ahead behind => ?_) (order walk) (order walk') perm
  obtain ⟨a, ha, rfl⟩ := List.mem_map.mp ((walk.listed p).mp hp)
  obtain ⟨a', ha', rfl⟩ := List.mem_map.mp ((places q).mpr ((walk'.listed q).mp hq))
  obtain ⟨s, node⟩ := (typed a ha).node
  obtain ⟨t, node'⟩ := (typed a' ha').node
  unfold Assignment.place at ahead behind ⊢
  simp only [node, node', Json.isBefore_text, decide_eq_true_eq, Json.text.injEq] at ahead behind
  -- two places that come before one another are on one node, where no two extents tie
  rcases ahead with lt | ⟨same, later⟩
  · rcases behind with gt | ⟨same, -⟩
    · exact absurd gt (lt_asymm lt)
    · exact absurd lt (same ▸ lt_irrefl s)
  · rcases behind with gt | ⟨-, earlier⟩
    · exact absurd gt (same ▸ lt_irrefl s)
    · have there : a.location = a'.location := by rw [node, node', same]
      rw [there, untied a ha a' ha' there earlier later]

/-- Walks over the same places have the same bins, if the same ranges were added at each place. That
the walks come to the places in one order is a hypothesis here. -/
theorem Walk.forall₂_same (walk : Walk as bins) (walk' : Walk bs bins')
    (places : bins.map Bin.place = bins'.map Bin.place)
    (agree : ∀ location extent, (Assignment.added as location extent ==
      Assignment.added bs location extent) = true) : List.Forall₂ Bin.Same bins bins' := by
  have equal : List.Forall₂ (· = ·) (bins.map Bin.place) (bins'.map Bin.place) := by
    rw [List.forall₂_eq_eq_eq]
    exact places
  have paired : List.Forall₂ (fun p q => p.place = q.place) bins bins' :=
    List.forall₂_map_right_iff.mp (List.forall₂_map_left_iff.mp equal)
  -- each bin has the ranges that were added at its place, on both sides
  have known := (List.forall₂_and_left _ _).mpr ⟨walk.ranges, paired⟩
  have known' := (List.forall₂_and_left _ _).mpr ⟨walk'.ranges, known.flip⟩
  refine known'.flip.imp fun p q h => ?_
  obtain ⟨there, here, place⟩ := h
  have location : p.location = q.location := congrArg Prod.fst place
  have extent : p.extent = q.extent := congrArg Prod.snd place
  refine ⟨location, extent, ?_⟩
  rw [here, there, location, extent]
  exact agree _ _

/-- Ranges that are assigned one by one make a binning. It has under each extent on each node the
ranges that were assigned there, in that order. It can be walked in order if and only if the extents
on each node can be compared, and then each of them comes once, in its place in the order, and all
ranges that were assigned are counted; otherwise neither the walk nor the count has a result, since
the extents are unlike. And two such binnings are the same if and only if each extent on each node
was given the same ranges in the same order, whatever came between them; if moreover no two extents
on a node tie, they are walked in the same way. -/
theorem build_interleaved (typed : ∀ a ∈ as, a.IsTyped) (typed' : ∀ a ∈ bs, a.IsTyped) :
    ∃ a b, build as = .ok a ∧ build bs = .ok b ∧
      (∀ location extent, a.ranges location extent = Assignment.added as location extent) ∧
      ((∃ bins, a.items = .ok bins) ↔ Assignment.Sortable as) ∧
      (∀ bins, a.items = .ok bins → Walk as bins ∧ a.numRanges = .ok as.length) ∧
      (¬ Assignment.Sortable as → a.items = .error .unlike ∧ a.numRanges = .error .unlike) ∧
      (a.same b = true ↔ ∀ location extent, (Assignment.added as location extent ==
        Assignment.added bs location extent) = true) ∧
      (a.same b = true → Assignment.Untied as → ∀ bins, a.items = .ok bins →
        ∃ bins', b.items = .ok bins' ∧ List.Forall₂ Bin.Same bins bins') := by
  -- two binnings are the same if all places have the same ranges, and the ranges are those that
  -- were added
  have same : (ofAssignments as).same (ofAssignments bs) = true ↔
      ∀ location extent, (Assignment.added as location extent ==
        Assignment.added bs location extent) = true := by
    rw [same_iff (wellFormed_ofAssignments as) (wellFormed_ofAssignments bs)
      (filled_ofAssignments as) (filled_ofAssignments bs)]
    simp only [ranges_ofAssignments]
    exact Iff.rfl
  refine ⟨_, _, build_eq_ok typed, build_eq_ok typed', ranges_ofAssignments as,
    exists_items_iff typed, fun bins h => ⟨walk_of_items typed h, numRanges_of_items h⟩,
    items_eq_unlike typed, same, fun equal untied bins h => ?_⟩
  have agree := same.mp equal
  have places := Assignment.mem_places_congr typed typed' agree
  have sortable : Assignment.Sortable bs :=
    ((exists_items_iff typed).mp ⟨bins, h⟩).of_places fun p hp => (places p).mpr hp
  obtain ⟨bins', h'⟩ := (exists_items_iff typed').mpr sortable
  have walk := walk_of_items typed h
  have walk' := walk_of_items typed' h'
  exact ⟨bins', h', walk.forall₂_same walk' (walk.places_eq typed untied places walk') agree⟩

/-- Ranges of two tablets on two nodes, as they may come. -/
def alternating : List Assignment := [⟨.text "b:1", .lowerHalf, .acrossHalves⟩,
  ⟨.text "a:1", .upperHalf, .acrossHalves⟩, ⟨.text "b:1", .lowerHalf, .everything⟩]

/-- The same ranges, node by node. -/
def nodeByNode : List Assignment := [⟨.text "a:1", .upperHalf, .acrossHalves⟩,
  ⟨.text "b:1", .lowerHalf, .acrossHalves⟩, ⟨.text "b:1", .lowerHalf, .everything⟩]

/-- The ranges of the two nodes come alternately in one case and one node after the other in the
other one, with the same binning. -/
theorem build_alternating : ∃ a b, build alternating = .ok a ∧ build nodeByNode = .ok b ∧
    a.items = .ok [⟨.text "a:1", .upperHalf, [.acrossHalves]⟩,
      ⟨.text "b:1", .lowerHalf, [.acrossHalves, .everything]⟩] ∧
    a.numRanges = .ok 3 ∧ (∀ location extent, (Assignment.added alternating location extent ==
      Assignment.added nodeByNode location extent) = true) := by
  have typed : ∀ a ∈ alternating, a.IsTyped := by
    unfold alternating
    simp only [List.forall_mem_cons]
    exact ⟨⟨⟨_, rfl⟩, ⟨_, rfl⟩, by decide⟩, ⟨⟨_, rfl⟩, ⟨_, rfl⟩, by decide⟩,
      ⟨⟨_, rfl⟩, ⟨_, rfl⟩, by decide⟩, List.forall_mem_nil _⟩
  have typed' : ∀ a ∈ nodeByNode, a.IsTyped := by
    unfold nodeByNode
    simp only [List.forall_mem_cons]
    exact ⟨⟨⟨_, rfl⟩, ⟨_, rfl⟩, by decide⟩, ⟨⟨_, rfl⟩, ⟨_, rfl⟩, by decide⟩,
      ⟨⟨_, rfl⟩, ⟨_, rfl⟩, by decide⟩, List.forall_mem_nil _⟩
  obtain ⟨a, b, ha, hb, -, -, walked, -, same, -⟩ := build_interleaved typed typed'
  have items : a.items = .ok [⟨.text "a:1", .upperHalf, [.acrossHalves]⟩,
      ⟨.text "b:1", .lowerHalf, [.acrossHalves, .everything]⟩] := by
    cases ha
    rfl
  have equal : a.same b = true := by
    cases ha
    cases hb
    rfl
  exact ⟨a, b, ha, hb, items, (walked _ items).2, same.mp equal⟩

/-- Two tablets on one node end at a number and at a text. -/
def unlikeEnds : List Assignment := [
  ⟨.text "a:1", ⟨.text "1", none, some (.number 1), trivial⟩, .everything⟩,
  ⟨.text "a:1", ⟨.text "1", none, some (.text "x"), trivial⟩, .everything⟩]

/-- Their ranges cannot be counted, because the two tablets have no order. -/
theorem not_counted_unlikeEnds : (∀ a ∈ unlikeEnds, a.IsTyped) ∧
    ∃ b, build unlikeEnds = .ok b ∧ b.items = .error .unlike ∧ b.numRanges = .error .unlike ∧
      b.numRanges ≠ .ok unlikeEnds.length := by
  refine ⟨?_, ofAssignments unlikeEnds, by rfl, by rfl, by rfl, nofun⟩
  unfold unlikeEnds
  simp only [List.forall_mem_cons]
  exact ⟨⟨⟨_, rfl⟩, ⟨_, rfl⟩, by decide⟩, ⟨⟨_, rfl⟩, ⟨_, rfl⟩, by decide⟩, List.forall_mem_nil _⟩

end Binning

end ScanPlanner
