import ScanPlanner.Proofs.OneSort
import ScanPlanner.Proofs.Uniting

/-!
# Merged ranges

Ranges whose keys can be compared are merged to the shortest list of ranges that denotes the same
union of intervals, in ascending order (`KeyRange.merge_minimal`). The list depends on that union
alone (`KeyRange.merge_eq_iff`), so it does not matter in which order the ranges are given, how
often, or whether some of them have been merged before (`KeyRange.merge_by_union`).

A union of intervals is told by its cuts, not by its keys: the whole numbers in `[1,2]` and `[3,4]`
are those in `[1,4]`, but the two intervals leave a gap.
-/

namespace ScanPlanner

/-- Spans that are united have no ends but those of the spans themselves, so keys of one sort stay
so. -/
theorem Span.keys_insertAll_subset (ss more : List Span) :
    KeyRange.spanKeys (insertAll ss more) ⊆ KeyRange.spanKeys ss ++ KeyRange.spanKeys more := by
  unfold insertAll
  induction more generalizing ss with
  | nil => simp
  | cons s more ih =>
    intro k hk
    have first := @keys_insert_subset s ss k
    have rest := ih (s.insert ss) hk
    simp only [KeyRange.spanKeys, List.flatMap_cons, List.mem_append] at first rest ⊢
    tauto

namespace KeyRange

variable {rs xs ys : List KeyRange}

theorem ofSpan_injective : Function.Injective ofSpan := fun s t h => by
  rw [← span_ofSpan s, h, span_ofSpan]

theorem spanKeys_map_span (rs : List KeyRange) : spanKeys (rs.map span) = rs.flatMap keys := by
  unfold spanKeys
  rw [List.flatMap_map]
  simp only [keys_span]

/-- The ranges denote the same union of intervals. It is said of the cuts that the spans have, which
is more than that the same keys are held. -/
def SameUnion (xs ys : List KeyRange) : Prop := Span.SameCuts (xs.map span) (ys.map span)

theorem SameUnion.symm (h : SameUnion xs ys) : SameUnion ys xs := Span.SameCuts.symm h

/-- Two lists denote the same union if the same cuts lie in some range of each. -/
theorem sameUnion_iff : SameUnion xs ys ↔
    ∀ c, (∃ r ∈ xs, r.span.Has c) ↔ ∃ r ∈ ys, r.span.Has c := by
  simp [SameUnion, Span.SameCuts, Span.AnyHas]

/-- Lists with the same members denote the same union, in whatever order and however often they list
them. -/
theorem SameUnion.of_mem_iff (same : ∀ r, r ∈ xs ↔ r ∈ ys) : SameUnion xs ys := by
  rw [sameUnion_iff]
  simp only [same, implies_true]

/-- Further ranges beside both lists leave them with the same union. -/
theorem SameUnion.append_right (h : SameUnion xs ys) (zs : List KeyRange) :
    SameUnion (xs ++ zs) (ys ++ zs) := by
  rw [sameUnion_iff] at h ⊢
  intro c
  simp only [List.mem_append, or_and_right, exists_or, h c]

/-! ## What ranges are merged to -/

/-- Ranges whose keys can be compared are merged to the union of their spans, and nothing fails. -/
theorem merge_of_oneSort (sort : OneSort (rs.flatMap keys)) :
    merge rs = .ok ((Span.insertAll [] (rs.map span)).map ofSpan) := by
  have each : ∀ r ∈ rs, r.keys ⊆ rs.flatMap keys :=
    fun r hr k hk => List.mem_flatMap.mpr ⟨r, hr, hk⟩
  unfold merge union
  rw [foldlM_addTo_of_oneSort sort each [] (List.nil_subset _)]
  rfl

/-- Ranges whose keys can be compared can be merged. -/
theorem exists_merge (sort : OneSort (rs.flatMap keys)) : ∃ out, merge rs = .ok out :=
  ⟨_, merge_of_oneSort sort⟩

/-- Merged ranges say in truth values whether their ends are closed, so they are told by their
spans. -/
theorem ofSpan_span_of_mem_merge {out : List KeyRange} (h : merge rs = .ok out) {r : KeyRange}
    (hr : r ∈ out) : ofSpan r.span = r := by
  obtain ⟨ss, -, h⟩ := Result.bind_eq_ok.mp h
  cases h
  obtain ⟨s, -, rfl⟩ := List.mem_map.mp hr
  rw [span_ofSpan]

/-- Merging keeps the union. -/
theorem sameUnion_merge {out : List KeyRange} (sort : OneSort (rs.flatMap keys))
    (h : merge rs = .ok out) : SameUnion out rs := by
  rw [merge_of_oneSort sort] at h
  cases h
  unfold SameUnion
  rw [map_span_ofSpan]
  exact Span.sameCuts_insertAll [] _

/-- Merged ranges end with keys that the given ranges end with. -/
theorem keys_merge_subset {out : List KeyRange} (sort : OneSort (rs.flatMap keys))
    (h : merge rs = .ok out) : out.flatMap keys ⊆ rs.flatMap keys := by
  rw [merge_of_oneSort sort] at h
  cases h
  rw [← spanKeys_map_span, map_span_ofSpan, ← spanKeys_map_span rs]
  exact Span.keys_insertAll_subset [] _

/-- What ranges are merged to is told by the union of intervals that they denote. So order,
repetition and the way in which the union is cut up do not matter. -/
theorem merge_eq_iff (hx : OneSort (xs.flatMap keys)) (hy : OneSort (ys.flatMap keys)) :
    merge xs = merge ys ↔ SameUnion xs ys := by
  have ux := Span.sameCuts_insertAll [] (xs.map span)
  have uy := Span.sameCuts_insertAll [] (ys.map span)
  rw [merge_of_oneSort hx, merge_of_oneSort hy]
  constructor
  · intro h
    have united := List.map_injective_iff.mpr ofSpan_injective (Except.ok.inj h)
    rw [united] at ux
    exact ux.symm.trans uy
  · intro same
    have sx := Span.separated_insertAll .nil (xs.map span)
    have sy := Span.separated_insertAll .nil (ys.map span)
    rw [sx.ext sy (ux.trans (same.trans uy.symm))]

/-! ## Ranges between which there is a gap -/

/-- The first range ends at the key where the second one begins, and one of them holds the key.
Nothing lies between two such ranges, and merging makes one of them. -/
def Touches (a b : KeyRange) : Prop :=
  ∃ e f, a.upper = some e ∧ b.lower = some f ∧ e.key = f.key ∧ (e.closed || f.closed) = true

/-- Where ranges touch there is no gap between them. -/
theorem Touches.lo_le_hi {a b : KeyRange} (h : a.Touches b) : b.lo ≤ a.hi := by
  obtain ⟨e, f, upper, lower, key, closed⟩ := h
  have inside := Cut.before_lt_after f.key
  unfold lo hi
  rw [upper, lower, Cut.ofUpper, Cut.ofLower, key]
  -- if neither end were closed, the key between them would be in neither range
  cases he : e.closed <;> cases hf : f.closed <;> simp_all [le_of_lt]

/-- The key where ranges touch has the ends of both beside it, because one of the two holds it. -/
theorem Touches.exists_key {a b : KeyRange} (h : a.Touches b) :
    ∃ k, a.hi ≤ .after k ∧ .before k ≤ b.lo := by
  obtain ⟨e, f, upper, lower, key, -⟩ := h
  have inside := Cut.before_lt_after f.key
  refine ⟨f.key, ?_⟩
  unfold lo hi
  rw [upper, lower, Cut.ofUpper, Cut.ofLower, key]
  cases e.closed <;> cases f.closed <;> simp_all [le_of_lt]

/-- Ranges with a gap between them do not touch, whichever of them comes first. Merged ranges are
such. -/
theorem not_touches_of_gap {a b : KeyRange} (gap : a.hi < b.lo ∨ b.hi < a.lo) : ¬ a.Touches b := by
  intro touch
  have ha : a.lo < a.hi := a.nonempty
  have hb : b.lo < b.hi := b.nonempty
  have le := touch.lo_le_hi
  rcases gap with gap | gap
  · order
  -- the second range ends before the first one begins, so both would lie inside the key
  · obtain ⟨k, upper, lower⟩ := touch.exists_key
    rcases b.hi.le_before_or_after_le k with side | side <;> order

/-! ## The shortest list -/

/-- A key that can be compared with those of the ranges is in one of them just if one of their spans
holds it. -/
theorem exists_contains?_iff {k : RowKey} (sort : OneSort (k :: rs.flatMap keys)) :
    (∃ r ∈ rs, r.contains? (some k) = .ok true) ↔ AnyHolds rs k := by
  refine exists_congr fun r => and_congr_right fun hr => ?_
  have sub : r.keys ⊆ k :: rs.flatMap keys :=
    fun _ hk => List.mem_cons_of_mem _ (List.mem_flatMap.mpr ⟨r, hr, hk⟩)
  rw [contains?_of_oneSort sort sub List.mem_cons_self, Except.ok.injEq, decide_eq_true_eq]

/-- The ranges of the second list hold the keys of the first ones and are the shortest list of
ranges with the same union: they ascend, and each two of them leave a gap. -/
structure MinimalCover (rs out : List KeyRange) : Prop where
  holds : ∀ k, OneSort (k :: rs.flatMap keys) →
    ((∃ r ∈ out, r.contains? (some k) = .ok true) ↔ ∃ r ∈ rs, r.contains? (some k) = .ok true)
  ascending : out.Pairwise fun a b => a.before? b = .ok true
  apart : ∀ a ∈ out, ∀ b ∈ out, a ≠ b → a.overlaps? b = .ok false ∧ ¬ a.Touches b
  same : SameUnion out rs
  least : ∀ others, SameUnion others rs → out.length ≤ others.length

/-- Ranges whose keys can be compared are merged to their minimal cover. It is what they come to if
all of them are sorted by where they begin and then each is joined with the next one, unless there
is a gap. -/
theorem merge_minimal (sort : OneSort (rs.flatMap keys)) :
    ∃ out, merge rs = .ok out ∧ MinimalCover rs out ∧
      out = (Span.unite (rs.map span)).map ofSpan := by
  obtain ⟨out, merged⟩ := exists_merge sort
  have sub := keys_merge_subset sort merged
  have same := sameUnion_merge sort merged
  have separated := separated_merge merged
  have keys_sub {a : KeyRange} (ha : a ∈ out) : a.keys ⊆ rs.flatMap keys :=
    fun k hk => sub (List.mem_flatMap.mpr ⟨a, ha, hk⟩)
  -- the keys that they hold, their order, the gaps between them, and that no shorter list has the
  -- same union
  refine ⟨out, merged, ⟨fun k hk => ?_, ?_, fun a ha b hb different => ?_, same, ?_⟩, ?_⟩
  · have hk' : OneSort (k :: out.flatMap keys) := hk.subset (List.cons_subset_cons k sub)
    rw [exists_contains?_iff hk', exists_contains?_iff hk, exists_mem_merge merged]
  · refine (List.pairwise_map.mp separated).imp_of_mem fun {a b} ha hb gap => ?_
    have before : a < b := .inl (lt_trans a.nonempty gap)
    rw [before?_of_oneSort sort (keys_sub ha) (keys_sub hb), decide_eq_true before]
  · have spans : a.span ≠ b.span := by
      intro e
      rw [← ofSpan_span_of_mem_merge merged ha, e, ofSpan_span_of_mem_merge merged hb] at different
      exact different rfl
    have gap := separated.gap (List.mem_map_of_mem ha) (List.mem_map_of_mem hb) spans
    have disjoint := Span.meet?_eq_none_iff.mpr (gap.imp le_of_lt le_of_lt)
    refine ⟨?_, not_touches_of_gap gap⟩
    rw [overlaps?_of_oneSort sort (keys_sub ha) (keys_sub hb), disjoint]
    rfl
  · intro others same'
    have shorter := separated.length_le (same.trans same'.symm)
    rwa [List.length_map, List.length_map] at shorter
  · rw [merge_of_oneSort sort, Span.insertAll_eq_unite] at merged
    exact (Except.ok.inj merged).symm

/-- A range without its end, one without its start, the key between them, and a range beside them.
-/
def bridged : List KeyRange := [
  ⟨some ⟨.text "g", .bool false⟩, some ⟨.text "m", .bool true⟩, by decide⟩,
  ⟨some ⟨.text "t", .bool true⟩, none, trivial⟩,
  ⟨some ⟨.text "a", .bool true⟩, some ⟨.text "g", .null⟩, by decide⟩,
  ⟨some ⟨.text "g", .bool true⟩, some ⟨.text "g", .bool true⟩, by decide⟩]

/-- The three parts are merged to one range. -/
def spanned : List KeyRange := [
  ⟨some ⟨.text "a", .bool true⟩, some ⟨.text "m", .bool true⟩, by decide⟩,
  ⟨some ⟨.text "t", .bool true⟩, none, trivial⟩]

/-- Two of the four ranges and the key between them are merged to one; the one behind the gap
stays. -/
theorem merge_minimal_bridged :
    OneSort (bridged.flatMap keys) ∧ merge bridged = .ok spanned ∧
      MinimalCover bridged spanned := by
  have sort : OneSort (bridged.flatMap keys) := by decide
  obtain ⟨out, merged, minimal, -⟩ := merge_minimal sort
  have known : merge bridged = .ok spanned := by decide +kernel
  rw [known] at merged
  cases merged
  exact ⟨sort, known, minimal⟩

/-! ## The union alone matters -/

/-- Some of the ranges may be merged first: the union is the same then. -/
theorem merge_merge_append (sort : OneSort ((xs ++ ys).flatMap keys)) :
    (merge xs >>= fun merged => merge (merged ++ ys)) = merge (xs ++ ys) := by
  rw [List.flatMap_append] at sort
  have hx := sort.subset (List.subset_append_left _ _)
  obtain ⟨merged, h⟩ := exists_merge hx
  have sub : merged.flatMap keys ++ ys.flatMap keys ⊆ xs.flatMap keys ++ ys.flatMap keys :=
    List.append_subset.mpr ⟨List.subset_append_of_subset_left _ (keys_merge_subset hx h),
      List.subset_append_right _ _⟩
  rw [h, Result.bind_ok, merge_eq_iff]
  · exact (sameUnion_merge hx h).append_right ys
  · rw [List.flatMap_append]
    exact sort.subset sub
  · rwa [List.flatMap_append]

/-- Neither the order of the ranges nor how often one is listed matters. -/
theorem merge_of_mem_iff (sort : OneSort (xs.flatMap keys)) {zs : List KeyRange}
    (same : ∀ r, r ∈ zs ↔ r ∈ xs) : merge zs = merge xs := by
  have sub : zs.flatMap keys ⊆ xs.flatMap keys := by
    intro k hk
    obtain ⟨r, hr, hk⟩ := List.mem_flatMap.mp hk
    exact List.mem_flatMap.mpr ⟨r, (same r).mp hr, hk⟩
  exact (merge_eq_iff (sort.subset sub) sort).mpr (.of_mem_iff same)

/-- Merged ranges stay as they are. -/
theorem merge_of_merge {out : List KeyRange} (sort : OneSort (xs.flatMap keys))
    (h : merge xs = .ok out) : merge out = .ok out := by
  rw [← h, merge_eq_iff (sort.subset (keys_merge_subset sort h)) sort]
  exact sameUnion_merge sort h

/-- The ranges to locate are the merged ones, or all rows if there are none. -/
theorem normalize_of_merge {out : List KeyRange} (h : merge xs = .ok out) :
    normalize xs true = .ok (if out.isEmpty then [everything] else out) := by
  show (merge xs >>= fun ns => _) = _
  rw [h]
  rfl

/-- Ranges that were prepared for locating are prepared already. -/
theorem normalize_of_normalize {out : List KeyRange} (sort : OneSort (xs.flatMap keys))
    (h : normalize xs true = .ok out) : normalize out true = .ok out := by
  obtain ⟨merged, hm, rfl⟩ := normalize_eq_ok h
  cases merged with
  | nil => rfl
  | cons r rs => exact normalize_of_merge (merge_of_merge sort hm)

/-- Ranges that denote the same union of intervals are merged to the same list, and no others are.
So it makes no difference whether some of the ranges are merged first, in which order they come, or
how often; and the ranges to locate are found in one step, whatever the order of the requested
ones. -/
theorem merge_by_union (sort : OneSort ((xs ++ ys).flatMap keys)) :
    (∃ out, merge (xs ++ ys) = .ok out ∧
      (merge xs >>= fun merged => merge (merged ++ ys)) = .ok out) ∧
    (∃ out, merge xs = .ok out ∧ ∀ zs, (∀ r, r ∈ zs ↔ r ∈ xs) → merge zs = .ok out) ∧
    ((∃ out, merge xs = .ok out ∧ merge ys = .ok out) ↔ SameUnion xs ys) ∧
    ∃ out, normalize xs true = .ok out ∧ normalize out true = .ok out ∧
      ∀ zs, (∀ r, r ∈ zs ↔ r ∈ xs) → normalize zs true = .ok out := by
  -- the keys of either list can be compared, being among those of both
  have keys_append : (xs ++ ys).flatMap keys = xs.flatMap keys ++ ys.flatMap keys :=
    List.flatMap_append
  have hx := sort.subset (keys_append ▸ List.subset_append_left _ _)
  have hy := sort.subset (keys_append ▸ List.subset_append_right _ _)
  obtain ⟨out, hout⟩ := exists_merge hx
  refine ⟨?_, ⟨out, hout, fun zs same => (merge_of_mem_iff hx same).trans hout⟩, ?_, ?_⟩
  · obtain ⟨all, hall⟩ := exists_merge sort
    exact ⟨all, hall, (merge_merge_append sort).trans hall⟩
  · rw [← merge_eq_iff hx hy, hout]
    constructor
    · rintro ⟨_, e, h⟩
      rw [h, e]
    · exact fun h => ⟨out, rfl, h.symm⟩
  · have located := normalize_of_merge hout
    refine ⟨_, located, normalize_of_normalize hx located, fun zs same => ?_⟩
    exact normalize_of_merge ((merge_of_mem_iff hx same).trans hout)

/-- The ranges in another order and one of them twice, and together with what they are merged to,
are all merged to the same. -/
theorem merge_by_union_bridged :
    OneSort ((bridged ++ spanned).flatMap keys) ∧ merge (bridged ++ spanned) = .ok spanned ∧
      (merge bridged >>= fun merged => merge (merged ++ spanned)) = .ok spanned ∧
      merge (bridged.reverse ++ bridged.take 1) = .ok spanned ∧ SameUnion bridged spanned ∧
      normalize spanned true = .ok spanned := by
  have sort : OneSort ((bridged ++ spanned).flatMap keys) := by decide
  have known : merge bridged = .ok spanned := by decide +kernel
  have knownAll : merge (bridged ++ spanned) = .ok spanned := by decide +kernel
  obtain ⟨⟨all, together, inTurn⟩, ⟨out, merged, again⟩, union, located, found, stays, -⟩ :=
    merge_by_union sort
  rw [knownAll] at together
  rw [known] at merged
  rw [normalize_of_merge known] at found
  cases together
  cases merged
  cases found
  refine ⟨sort, knownAll, inTurn, again _ fun r => ?_, union.mp ⟨spanned, known, ?_⟩, stays⟩
  · rw [List.mem_append, List.mem_reverse]
    exact or_iff_left_of_imp List.mem_of_mem_take
  · decide +kernel

end KeyRange

end ScanPlanner
