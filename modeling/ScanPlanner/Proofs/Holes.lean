import Mathlib.Data.List.Chain
import ScanPlanner.Proofs.Gapless

/-!
# Tablets with holes between them

Any tablets may be missing from a sorted list. The search for a range then has a result just if the
tablets that are left cover it, and finds exactly those that overlap it, each of which begins where
the one before it ends (`Tablet.search_of_sorted`). That the search ends at the first tablet
beside the range that follows one within it makes no difference: a search through the whole list
(`Tablet.coveringAll?`) has the same result.
-/

namespace ScanPlanner

namespace Tablet

/-! ## A search that does not end early -/

/-- Collects the tablets that overlap the range, with the union of their rows, from the whole
list. -/
def collectAll (range : KeyRange) : List Tablet → List Tablet → List Span →
    Result (List Tablet × List Span)
  | [], found, covered => .ok (found, covered)
  | t :: ts, found, covered => do
    if ← t.extent.rows.overlaps? range then
      collectAll range ts (found ++ [t]) (← KeyRange.addTo covered t.extent.rows)
    else collectAll range ts found covered

/-- The tablets that cover the range, looked for in the whole list, or none if they leave a part of
it uncovered. -/
def coveringAll? (tablets : List Tablet) (range : KeyRange) : Result (Option (List Tablet)) := do
  let (found, covered) ← collectAll range tablets [] []
  if found.isEmpty then return none
  if !alikeKeys (KeyRange.spanKeys covered) range.keys then throw .unlike
  return if Span.someCovers covered range.span then some found else none

/-- If the keys are of one sort, the full scan finds the tablets that meet the range, in their
order, and unites their rows. -/
theorem collectAll_of_oneSort {ks : List RowKey} (h : OneSort ks) {range : KeyRange}
    (hr : range.keys ⊆ ks) {ts : List Tablet} (ht : ∀ t ∈ ts, t.extent.rows.keys ⊆ ks)
    (found : List Tablet) (covered : List Span) (hc : KeyRange.spanKeys covered ⊆ ks) :
    collectAll range ts found covered = .ok (found ++ ts.filter (meets range),
      Span.insertAll covered ((ts.filter (meets range)).map (·.extent.rows.span))) := by
  -- induction on the list, for whatever was found before
  induction ts generalizing found covered with
  | nil => simp [collectAll, Span.insertAll]
  | cons t ts ih =>
    obtain ⟨first, rest⟩ := List.forall_mem_cons.mp ht
    have meets_t : t.extent.rows.overlaps? range = .ok (t.meets range) :=
      KeyRange.overlaps?_of_oneSort h first hr
    unfold collectAll
    rw [meets_t, Result.bind_ok]
    cases overlaps : t.meets range with
    | true =>
      simp only [if_true, KeyRange.addTo_of_oneSort h hc first, Result.bind_ok]
      rw [ih rest, List.filter_cons_of_pos overlaps]
      · simp [Span.insertAll]
      · refine List.Subset.trans (Span.keys_insert_subset _ _) ?_
        rw [KeyRange.keys_span]
        exact List.append_subset.mpr ⟨first, hc⟩
    | false =>
      simp only [Bool.false_eq_true, if_false]
      rw [ih rest found covered hc, List.filter_cons_of_neg (by simp [overlaps])]

/-! ## The order of tablets -/

/-- Sorted tablets of one table that do not overlap lie one behind the other. The sort only looks at
where they end; that they do not overlap gives the rest. -/
theorem ordered_of_sorted {ts : List Tablet}
    (oneTable : ∀ t ∈ ts, ∀ u ∈ ts, (t.extent.tableId == u.extent.tableId) = true)
    (apart : Apart ts) (sorted : ts.Pairwise fun t u => u.extent.isBefore t.extent = false) :
    Ordered ts := by
  refine (apart.and sorted).imp_of_mem fun {t u} ht hu both => ?_
  obtain ⟨disjoint, le⟩ := both
  unfold Extent.isBefore at le
  rw [if_pos (oneTable u hu t ht), decide_eq_false_iff_not, ← Extent.hi_span_rows,
    ← Extent.hi_span_rows, not_lt] at le
  rcases Span.meet?_eq_none_iff.mp (Extent.meet?_rows_eq_none disjoint) with before | behind
  · exact before
  · -- the second tablet cannot end before the first one begins, as it does not end before it
    have := t.extent.rows.span.lo_lt_hi
    exact absurd le (by order)

/-- If each cut between the beginning of one tablet and the end of another lies in some tablet, each
tablet ends where the next one begins. -/
theorem Ordered.isChain {ts : List Tablet} (ordered : Ordered ts)
    (filled : ∀ t ∈ ts, ∀ u ∈ ts, ∀ c, t.extent.rows.span.lo ≤ c → c < u.extent.rows.span.hi →
      ∃ v ∈ ts, v.extent.rows.span.Has c) :
    ts.IsChain fun t u => t.extent.rows.span.hi = u.extent.rows.span.lo := by
  induction ts with
  | nil => exact .nil
  | cons t ts ih =>
    obtain ⟨behind, rest⟩ := List.pairwise_cons.mp ordered
    have tail := ih rest fun u hu v hv c lo hi => by
      obtain ⟨w, hw, has⟩ := filled u (.tail _ hu) v (.tail _ hv) c lo hi
      rcases List.mem_cons.mp hw with rfl | hw
      · exact absurd has.2 (not_lt.mpr (le_trans (behind u hu) lo))
      · exact ⟨w, hw, has⟩
    cases ts with
    | nil => exact .singleton _
    | cons u us =>
      refine List.isChain_cons_cons.mpr ⟨?_, tail⟩
      have le := behind u List.mem_cons_self
      by_contra gap
      -- the cut where the first tablet ends lies in none: the others begin behind the gap
      have lt := lt_of_le_of_ne le gap
      obtain ⟨w, hw, has⟩ := filled t List.mem_cons_self u (.tail _ List.mem_cons_self)
        t.extent.rows.span.hi (le_of_lt t.extent.rows.span.lo_lt_hi)
        (lt_trans lt u.extent.rows.span.lo_lt_hi)
      rcases List.mem_cons.mp hw with rfl | hw
      · exact lt_irrefl _ has.2
      · have first : u.extent.rows.span.lo ≤ w.extent.rows.span.lo := by
          rcases List.mem_cons.mp hw with rfl | hw
          · exact le_refl _
          · exact le_trans (le_of_lt u.extent.rows.span.lo_lt_hi)
              (List.rel_of_pairwise_cons rest hw)
        have := has.1
        order

/-- Tablets in order that meet a range and cover it leave no gap. Each of them but the last ends
within the range, and the cut there lies in the next one. -/
theorem Ordered.isChain_of_covers {ts : List Tablet} (ordered : Ordered ts) {range : KeyRange}
    (each : ∀ t ∈ ts, t.meets range = true)
    (covers : ∀ c, range.span.Has c → ∃ t ∈ ts, t.extent.rows.span.Has c) :
    ts.IsChain fun t u => t.extent.rows.span.hi = u.extent.rows.span.lo := by
  refine ordered.isChain fun t ht u hu c lo hi => ?_
  rcases lt_or_ge c range.span.lo with before | from_lo
  · -- the first tablet reaches into the range
    exact ⟨t, ht, lo, lt_trans before (meets_iff.mp (each t ht)).1⟩
  · rcases lt_or_ge c range.span.hi with within | behind
    · exact covers c ⟨from_lo, within⟩
    · -- the second tablet begins within the range
      exact ⟨u, hu, le_of_lt (lt_of_lt_of_le (meets_iff.mp (each u hu)).2 behind), hi⟩

/-- A tablet that begins where another one of its table ends follows it. The end is a row then, not
the end of all rows. -/
theorem follows_of_hi_eq_lo {t u : Tablet}
    (same : (t.extent.tableId == u.extent.tableId) = true)
    (h : t.extent.rows.span.hi = u.extent.rows.span.lo) : u.extent.follows t.extent = true := by
  rw [Extent.hi_span_rows, Extent.lo_span_rows] at h
  unfold Extent.follows
  rw [same]
  cases last : t.extent.last <;> cases prev : u.extent.prev <;>
    simp [last, prev, Cut.upTo, Cut.behind] at h ⊢
  exact h

/-! ## The search -/

/-- A part of a range lies in one of the tablets just if it lies in one of those that meet the
range. -/
theorem exists_meets_iff {ts : List Tablet} {range : KeyRange} {c : Cut} (hc : range.span.Has c) :
    (∃ t ∈ ts.filter (meets range), t.extent.rows.span.Has c) ↔
      ∃ t ∈ ts, t.extent.rows.span.Has c := by
  constructor
  · rintro ⟨t, ht, has⟩
    exact ⟨t, (List.mem_filter.mp ht).1, has⟩
  · rintro ⟨t, ht, has⟩
    exact ⟨t, List.mem_filter.mpr ⟨ht, meets_of_has hc has⟩, has⟩

/-- Tablets in order are searched with one result, whether the search ends early or not: those that
meet the range, if all tablets together cover it. -/
theorem covering?_of_ordered {ts : List Tablet} (ordered : Ordered ts) {range : KeyRange}
    (sort : OneSort (ts.flatMap (fun t => t.extent.rows.keys) ++ range.keys)) :
    covering? ts range = .ok (if Span.someCovers
      (Span.insertAll [] (ts.map (·.extent.rows.span))) range.span then
        some (ts.filter (meets range)) else none) ∧
      coveringAll? ts range = covering? ts range := by
  have keys := fun t (ht : t ∈ ts) => keys_subset ht range.keys
  have rangeKeys := List.subset_append_right (ts.flatMap (fun t => t.extent.rows.keys)) range.keys
  obtain ⟨out, hout, spanKeys⟩ := exists_collect sort rangeKeys keys [] [] (List.nil_subset _)
  have found := collect_of_ordered ordered (fun ne => absurd rfl ne) hout
  rw [List.nil_append] at found
  have whole := collectAll_of_oneSort sort rangeKeys keys [] [] (List.nil_subset _)
  rw [List.nil_append, ← found, ← hout] at whole
  refine ⟨?_, by unfold covering? coveringAll?; rw [whole]⟩
  -- the tablets beside the range add nothing to what covers it
  have covers : Span.someCovers out.2 range.span =
      Span.someCovers (Span.insertAll [] (ts.map (·.extent.rows.span))) range.span := by
    rw [found, Bool.eq_iff_iff, Span.someCovers_insertAll, Span.someCovers_insertAll]
    refine forall₂_congr fun c hc => ?_
    simpa [Span.AnyHas] using exists_meets_iff hc
  have alike := sort.alikeKeys spanKeys rangeKeys
  unfold covering?
  rw [hout, Result.bind_ok, ← covers]
  cases none_meets : out.1.isEmpty with
  | true =>
    have nil : ts.filter (meets range) = [] := by simpa [found] using none_meets
    simp [found, nil, Span.insertAll, Span.someCovers]
  | false =>
    simp only [none_meets, alike, Bool.false_eq_true, if_false, Bool.not_true]
    rw [found]
    rfl

/-- Among the sorted tablets of one table, of which any may be missing, a range has a result just if
the rows of all of them together contain it. These are then the tablets that overlap it, each of
which begins where the one before it ends; and it is the result of a search through the whole
list. -/
theorem search_of_sorted {tablets : List Tablet} {range : KeyRange}
    (oneTable : ∀ t ∈ tablets, ∀ u ∈ tablets, (t.extent.tableId == u.extent.tableId) = true)
    (apart : Apart tablets)
    (sorted : tablets.Pairwise fun t u => u.extent.isBefore t.extent = false)
    (sort : OneSort (tablets.flatMap (fun t => t.extent.rows.keys) ++ range.keys)) :
    ∃ union, KeyRange.union (tablets.map (·.extent.rows)) = .ok union ∧
      covering? tablets range = .ok (if Span.someCovers union range.span then
        some (tablets.filter (meets range)) else none) ∧
      (∀ t ∈ tablets, t.extent.rows.overlaps? range = .ok (t.meets range)) ∧
      (Span.someCovers union range.span = true →
        (tablets.filter (meets range)).IsChain fun t u => u.extent.follows t.extent = true) ∧
      coveringAll? tablets range = covering? tablets range := by
  have keys := fun t (ht : t ∈ tablets) => keys_subset ht range.keys
  have rangeKeys :=
    List.subset_append_right (tablets.flatMap (fun t => t.extent.rows.keys)) range.keys
  have ordered := ordered_of_sorted oneTable apart sorted
  obtain ⟨result, whole⟩ := covering?_of_ordered ordered sort
  refine ⟨_, ?_, result, ?_, fun covers => ?_, whole⟩
  · have rows : ∀ r ∈ tablets.map (·.extent.rows),
        r.keys ⊆ tablets.flatMap (fun t => t.extent.rows.keys) ++ range.keys := by simpa using keys
    have union := KeyRange.foldlM_addTo_of_oneSort sort rows [] (List.nil_subset _)
    rwa [List.map_map] at union
  · exact fun t ht => KeyRange.overlaps?_of_oneSort sort (keys t ht) rangeKeys
  · rw [Span.someCovers_insertAll] at covers
    -- tablets in order that leave no gap within the range follow each other
    have chain := Ordered.isChain_of_covers (List.Pairwise.filter (meets range) ordered)
      (fun t ht => (List.mem_filter.mp ht).2)
      (fun c hc => (exists_meets_iff hc).mpr (by simpa [Span.AnyHas] using covers c hc))
    refine chain.imp_of_mem_imp fun t u ht hu meet => ?_
    exact follows_of_hi_eq_lo
      (oneTable t (List.mem_filter.mp ht).1 u (List.mem_filter.mp hu).1) meet

/-- Three tablets of a table, of which the one before the last is missing. -/
def holed : List Tablet := [⟨⟨.text "1", none, some (.text "g"), trivial⟩, none, none⟩,
  ⟨⟨.text "1", some (.text "g"), some (.text "p"), by decide⟩, none, none⟩,
  ⟨⟨.text "1", some (.text "t"), none, trivial⟩, none, none⟩]

/-- A range up to the end of the second tablet is covered by two of them, and one that reaches into
the hole is not covered. -/
theorem search_holed : ∃ union, KeyRange.union (holed.map (·.extent.rows)) = .ok union ∧
    covering? holed ⟨some ⟨.text "c", .bool true⟩, some ⟨.text "p", .bool true⟩, by decide⟩ =
      .ok (some (holed.take 2)) ∧
    covering? holed ⟨some ⟨.text "c", .bool true⟩, some ⟨.text "q", .bool true⟩, by decide⟩ =
      .ok none := by
  have ordered : Ordered holed := by decide
  have sorted : holed.Pairwise fun t u => u.extent.isBefore t.extent = false := by decide
  -- one range lies in the union of the two tablets that are first, the other reaches into the gap
  obtain ⟨union, united, covered, -⟩ := @search_of_sorted holed
    ⟨some ⟨.text "c", .bool true⟩, some ⟨.text "p", .bool true⟩, by decide⟩
    (by decide) ordered.apart sorted (by decide)
  obtain ⟨union', united', uncovered, -⟩ := @search_of_sorted holed
    ⟨some ⟨.text "c", .bool true⟩, some ⟨.text "q", .bool true⟩, by decide⟩
    (by decide) ordered.apart sorted (by decide)
  refine ⟨union, united, ?_, ?_⟩
  · rw [covered]
    cases united
    decide
  · rw [uncovered]
    cases united'
    decide

end Tablet

end ScanPlanner
