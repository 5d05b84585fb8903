import ScanPlanner.Proofs.Spread

/-!
# Tablets in order

Tablets that follow one another without an overlap are searched for a range in one sweep: those that
meet the range are neighbours, so the search finds just them (`Tablet.collect_of_ordered`). If there
is no gap either, every cut lies in one of the tablets, so those that meet a range cover it
(`Tablet.covering?_of_gapless`), and a range is located unless one of them is not hosted
(`Located.mem_unresolved_iff`).
-/

namespace ScanPlanner

namespace Tablet

/-- The tablet has something in common with the range. -/
def meets (range : KeyRange) (t : Tablet) : Bool := (t.extent.rows.span.meet? range.span).isSome

/-- A tablet meets a range if each of them begins before the other one ends. -/
theorem meets_iff {range : KeyRange} {t : Tablet} :
    t.meets range = true ↔
      range.span.lo < t.extent.rows.span.hi ∧ t.extent.rows.span.lo < range.span.hi := by
  unfold meets
  rw [Option.isSome_iff_ne_none, ne_eq, Span.meet?_eq_none_iff, not_or, not_le, not_le]

theorem meets_of_has {range : KeyRange} {t : Tablet} {c : Cut} (hr : range.span.Has c)
    (ht : t.extent.rows.span.Has c) : t.meets range = true :=
  meets_iff.mpr ⟨lt_of_le_of_lt hr.1 ht.2, lt_of_le_of_lt ht.1 hr.2⟩

/-- Each tablet lies behind the ones before it. Bounds may be equal, since a tablet does not hold
the row that it begins behind. -/
def Ordered (ts : List Tablet) : Prop :=
  ts.Pairwise fun t u => t.extent.rows.span.hi ≤ u.extent.rows.span.lo

instance (ts : List Tablet) : Decidable (Ordered ts) :=
  inferInstanceAs (Decidable (ts.Pairwise fun t u =>
    t.extent.rows.span.hi ≤ u.extent.rows.span.lo))

theorem Ordered.apart {ts : List Tablet} (h : Ordered ts) : Apart ts :=
  h.imp fun le _ both => Span.not_holds_of_le le both.1 both.2

/-- Every cut below the top lies in one of the tablets. It is said of cuts and not of keys, since
there need not be a key between two others. -/
def Gapless (ts : List Tablet) : Prop :=
  ∀ c < Cut.top, ∃ t ∈ ts, t.extent.rows.span.Has c

/-! ## The search -/

/-- Among tablets in order, the search finds those that meet the range, and unites their rows. It
stops at the first one behind them that does not; in order, no later one would. -/
theorem collect_of_ordered {range : KeyRange} {ts found : List Tablet} {covered : List Span}
    {out : List Tablet × List Span} (ordered : Ordered ts)
    (begun : found ≠ [] → ∀ t ∈ ts, range.span.lo < t.extent.rows.span.hi)
    (h : collect range ts found covered = .ok out) :
    out = (found ++ ts.filter (meets range),
      Span.insertAll covered ((ts.filter (meets range)).map (·.extent.rows.span))) := by
  -- induction on the tablets; once one is found, the range begins before all that are left
  induction ts generalizing found covered with
  | nil =>
    cases h
    simp [Span.insertAll]
  | cons t ts ih =>
    obtain ⟨behind, rest⟩ := List.pairwise_cons.mp ordered
    unfold collect at h
    obtain ⟨overlaps, hoverlaps, h⟩ := Result.bind_eq_ok.mp h
    have meets_t : t.meets range = overlaps := (KeyRange.overlaps?_eq_ok hoverlaps).symm
    cases overlaps with
    | true =>
      simp only [if_true] at h
      obtain ⟨mid, hmid, h⟩ := Result.bind_eq_ok.mp h
      have lt := (meets_iff.mp meets_t).1
      have begins : ∀ u ∈ ts, range.span.lo < u.extent.rows.span.hi :=
        fun u hu => lt.trans (lt_of_le_of_lt (behind u hu) u.extent.rows.span.lo_lt_hi)
      rw [ih rest (fun _ => begins) h, KeyRange.addTo_eq_ok hmid, List.filter_cons_of_pos meets_t]
      simp [Span.insertAll]
    | false =>
      simp only [Bool.false_eq_true, if_false] at h
      rw [List.filter_cons_of_neg (by simp [meets_t])]
      cases hfound : found.isEmpty with
      | true =>
        rw [hfound] at h
        have e := List.isEmpty_iff.mp hfound
        exact ih rest (fun ne => absurd e ne) h
      | false =>
        rw [hfound] at h
        cases h
        -- the range ends before this tablet, and so before those behind it
        have ne : found ≠ [] := fun e => by simp [e] at hfound
        have past : range.span.hi ≤ t.extent.rows.span.lo := by
          by_contra short
          have := meets_iff.mpr ⟨begun ne t List.mem_cons_self, not_le.mp short⟩
          rw [meets_t] at this
          cases this
        have none_left : ts.filter (meets range) = [] := by
          refine List.filter_eq_nil_iff.mpr fun u hu meets_u => ?_
          have := (meets_iff.mp meets_u).2
          have := behind u hu
          have := t.extent.rows.span.lo_lt_hi
          order
        rw [none_left]
        simp [Span.insertAll]

/-- Tablets in order and without a gap: those that meet a range cover it. The search may still fail,
if the keys cannot be compared. -/
theorem covering?_of_gapless {ts : List Tablet} (ordered : Ordered ts) (gapless : Gapless ts)
    {range : KeyRange} {found : Option (List Tablet)} (h : covering? ts range = .ok found) :
    found = some (ts.filter (meets range)) := by
  -- each cut of the range lies in a tablet, which then meets the range
  have has {c : Cut} (hc : range.span.Has c) :
      ∃ t ∈ ts.filter (meets range), t.extent.rows.span.Has c := by
    obtain ⟨t, ht, has⟩ := gapless c (lt_of_lt_of_le hc.2 (Cut.le_top _))
    exact ⟨t, List.mem_filter.mpr ⟨ht, meets_of_has hc has⟩, has⟩
  unfold covering? at h
  obtain ⟨out, hcollect, h⟩ := Result.bind_eq_ok.mp h
  rw [collect_of_ordered ordered (fun ne => absurd rfl ne) hcollect, List.nil_append] at h
  obtain ⟨t, ht, -⟩ := has (c := range.span.lo) ⟨le_refl _, range.span.lo_lt_hi⟩
  have some_found : (ts.filter (meets range)).isEmpty = false := by
    rw [List.isEmpty_eq_false_iff_exists_mem]
    exact ⟨t, ht⟩
  have covers : Span.someCovers (Span.insertAll []
      ((ts.filter (meets range)).map (·.extent.rows.span))) range.span = true := by
    rw [Span.someCovers_insertAll]
    intro c hc
    obtain ⟨u, hu, has_u⟩ := has hc
    exact ⟨_, List.mem_map_of_mem hu, has_u⟩
  simp only [some_found, covers, Bool.false_eq_true, if_false, if_true] at h
  split at h
  · cases h
  · exact (Except.ok.inj h).symm

end Tablet

namespace Located

/-- Among tablets in order and without a gap, a range is left out just if one of the tablets that it
meets is not hosted. -/
theorem mem_unresolved_iff {ts : List Tablet} (ordered : Tablet.Ordered ts)
    (gapless : Tablet.Gapless ts) {ranges : List KeyRange} {l : Located}
    (h : ofTablets ts ranges = .ok l) {range : KeyRange} (hr : range ∈ ranges) :
    range ∈ l.unresolved ↔ ∃ t ∈ ts, t.meets range = true ∧ t.location = none := by
  obtain ⟨found, hfound⟩ := exists_covering?_of_ofTablets h range hr
  have all := Tablet.covering?_of_gapless ordered gapless hfound
  rw [ofTablets_eq_ok h, List.mem_filter]
  unfold isLocated
  rw [hfound, all]
  simp [hr]

end Located

end ScanPlanner
