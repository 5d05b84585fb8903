import ScanPlanner.Proofs.Coverage
import ScanPlanner.Proofs.Fitting

/-!
# Resolving ranges

When ranges of a table are resolved, each of them is either reported back or assigned as a whole
(`Locator.resolve_of_legible`). It is reported back just if nothing covers it or one of the tablets
that cover it is not hosted. Otherwise it is in the binning once for every time it is given and
every tablet that covers it, with the node that hosts that tablet; and nothing else is in the
binning (`Located.Exact`).

The search for tablets and the clipping of a range tell in different ways whether a range and an
extent have something in common. They agree, so each range of the binning can be clipped to the
extent that it is assigned to (`Extent.Clips`).
-/

namespace ScanPlanner

/-- The range overlaps the extent, and can be clipped to it. -/
def Extent.Clips (e : Extent) (range : KeyRange) : Prop :=
  e.rows.overlaps? range = .ok true ∧ ∃ part, e.rows.clip range = .ok part

theorem Extent.clips_congr {e e' : Extent} (h : (e == e') = true) (range : KeyRange) :
    e.Clips range ↔ e'.Clips range := by
  unfold Clips
  rw [rows_eq_of_beq h]

namespace Located

/-- What becomes of ranges that are resolved among tablets. -/
structure Exact (tablets : List Tablet) (ranges : List KeyRange) (l : Located) : Prop where
  /-- In the order given and as often as given, those ranges are left that nothing covers, or of
  whose covering tablets one is not hosted. -/
  unresolved : ∃ left : KeyRange → Bool, l.unresolved = ranges.filter left ∧
    ∀ r ∈ ranges, left r = true ↔ Tablet.covering? tablets r = .ok none ∨
      ∃ found, Tablet.covering? tablets r = .ok (some found) ∧ ∃ t ∈ found, t.location = none
  /-- Each other range is assigned to the tablets that cover it, as often as it is given, and there
  is nothing else that an extent on a node has been given. -/
  binned : ∃ bearers : KeyRange → List Tablet,
    (∀ r ∈ ranges, r ∈ l.unresolved → bearers r = []) ∧
    (∀ r ∈ ranges, r ∉ l.unresolved → Tablet.covering? tablets r = .ok (some (bearers r))) ∧
    ∀ location extent, l.binning.ranges location extent = ranges.flatMap fun r =>
      ((bearers r).filter fun t => t.location == some location && t.extent == extent).map fun _ => r
  /-- No node and no extent on a node is in the binning twice. -/
  wellFormed : l.binning.WellFormed
  /-- No node in the binning is without an extent, and no extent on a node without a range. -/
  filled : l.binning.Filled
  /-- Each range overlaps the extent that it is assigned to. -/
  clips : ∀ location extent, ∀ r ∈ l.binning.ranges location extent, extent.Clips r
  /-- The bins of each node can be clipped. -/
  parts : ∀ node bins, l.binning.binsAt node = .ok bins → ∃ pss, bins.mapM Splitting.parts = .ok pss

variable {tablets : List Tablet} {ranges : List KeyRange}

/-- A range that is covered is located exactly if all tablets that cover it are hosted. -/
theorem isLocated_of_covering? {range : KeyRange} {found : List Tablet}
    (h : Tablet.covering? tablets range = .ok (some found)) :
    isLocated tablets range = found.all fun t => t.location.isSome := by
  unfold isLocated
  rw [h]

/-- A range that is not located is not covered, or by a tablet that is not hosted. That the search
gives an answer at all is a hypothesis. -/
theorem isLocated_eq_false_iff {range : KeyRange} {found : Option (List Tablet)}
    (h : Tablet.covering? tablets range = .ok found) :
    isLocated tablets range = false ↔ Tablet.covering? tablets range = .ok none ∨
      ∃ found, Tablet.covering? tablets range = .ok (some found) ∧
        ∃ t ∈ found, t.location = none := by
  cases found with
  | none =>
    unfold isLocated
    simp [h]
  | some found =>
    rw [isLocated_of_covering? h, h, List.all_eq_false]
    simp

/-- The tablets to which a range is assigned: those that cover it if all of them are hosted, and
none otherwise. -/
def bearers (tablets : List Tablet) (range : KeyRange) : List Tablet :=
  if isLocated tablets range then Tablet.coverers tablets range else []

/-- A range that is located is covered by the tablets that bear it. -/
theorem covering?_eq_bearers {range : KeyRange} (h : isLocated tablets range = true) :
    Tablet.covering? tablets range = .ok (some (bearers tablets range)) := by
  obtain ⟨found, hfound⟩ := cover_of_isLocated h
  unfold bearers Tablet.coverers
  rw [if_pos h, hfound]

/-- Each of the tablets that bear a range is on the node that hosts it, because only ranges all of
whose tablets are hosted are located. -/
theorem host_of_mem_bearers {range : KeyRange} {t : Tablet} (ht : t ∈ bearers tablets range) :
    t.location = some t.host := by
  unfold bearers at ht
  cases located : isLocated tablets range with
  | false => simp [located] at ht
  | true =>
    obtain ⟨found, hfound⟩ := cover_of_isLocated located
    rw [isLocated_of_covering? hfound, List.all_eq_true] at located
    simp only [isLocated_of_covering? hfound, List.all_eq_true.mpr located, if_true,
      Tablet.coverers, hfound] at ht
    obtain ⟨a, ha⟩ := Option.isSome_iff_exists.mp (located t ht)
    rw [Tablet.host, ha, Option.getD_some]

/-- What the binning of the located ranges has for an extent on a node: each located range once for
every tablet that covers it there, in the order of the ranges. -/
theorem ranges_spread_located (tablets : List Tablet) (ranges : List KeyRange) (location : Address)
    (extent : Extent) :
    (Binning.spread Tablet.host tablets (ranges.filter (isLocated tablets))).ranges location
        extent =
      ranges.flatMap fun r => ((bearers tablets r).filter fun t =>
        t.location == some location && t.extent == extent).map fun _ => r := by
  rw [Binning.ranges_spread]
  induction ranges with
  | nil => rfl
  | cons r rs ih =>
    rw [List.flatMap_cons, ← ih]
    -- a tablet that bears a range is hosted, so its host is its location
    have hosted : (bearers tablets r).filter (fun t =>
          t.location == some location && t.extent == extent) =
        (bearers tablets r).filter fun t => t.host == location && t.extent == extent := by
      refine List.filter_congr fun t ht => ?_
      rw [host_of_mem_bearers ht]
      rfl
    rw [hosted]
    unfold bearers
    cases located : isLocated tablets r with
    | true => simp [located]
    | false => simp [located]

/-- Tablets that cover a range overlap it, so it can be clipped to their extents. Legible tablets
have keys that can be compared with those of the range. -/
theorem clips_of_mem_assigned (legible : Tablet.Legible tablets ranges) {node : Tablet → Address}
    {a : Assignment} (ha : a ∈ ranges.flatMap (Tablet.assigned node tablets)) :
    a.extent.Clips a.range := by
  obtain ⟨r, hr, t, ht, rfl⟩ := Tablet.mem_assigned.mp ha
  have rows := Tablet.keys_subset ((Tablet.coverers_sublist tablets r).subset ht)
    (ranges.flatMap KeyRange.keys)
  have keys : r.keys ⊆ tablets.flatMap (fun t => t.extent.rows.keys) ++
      ranges.flatMap KeyRange.keys :=
    fun k hk => List.mem_append_right _ (List.mem_flatMap.mpr ⟨r, hr, hk⟩)
  -- a tablet that covers the range meets it
  have meets : t.extent.rows.span.meet? r.span ≠ none := by
    obtain ⟨found, hfound⟩ := legible.exists_covering? hr
    cases found with
    | none => simp [Tablet.coverers, hfound] at ht
    | some found =>
      simp only [Tablet.coverers, hfound] at ht
      exact (Tablet.covering?_eq_some hfound).2.1 t ht
  have overlaps := KeyRange.overlaps?_of_oneSort legible.keys rows keys
  rw [Option.isSome_iff_ne_none.mpr meets] at overlaps
  exact ⟨overlaps, KeyRange.exists_clip (legible.keys.alikeKeys rows keys) overlaps⟩

/-- What a binning of such assignments holds can be clipped as well. -/
theorem clips_of_mem_assignments {as : List Assignment} (clips : ∀ a ∈ as, a.extent.Clips a.range)
    {a : Assignment} (ha : a ∈ (Binning.ofAssignments as).assignments) :
    a.extent.Clips a.range := by
  obtain ⟨a', ha', -, extent, range⟩ := Binning.exists_of_mem_assignments ha
  exact range ▸ (Extent.clips_congr extent _).mp (clips a' ha')

/-- Ranges are resolved exactly among legible tablets: those that are not located are reported in
their order, and the others are assigned to the tablets that cover them. -/
theorem exact_of_legible (legible : Tablet.Legible tablets ranges) :
    ∃ l, ofTablets tablets ranges = .ok l ∧ Exact tablets ranges l := by
  refine ⟨_, ofTablets_of_legible legible, ?_⟩
  -- what is assigned of the located ranges is part of what would be assigned of all
  have clips : ∀ a ∈ (ranges.filter (isLocated tablets)).flatMap
      (Tablet.assigned Tablet.host tablets), a.extent.Clips a.range := by
    intro a ha
    obtain ⟨r, hr, assigned⟩ := List.mem_flatMap.mp ha
    exact clips_of_mem_assigned legible
      (List.mem_flatMap.mpr ⟨r, (List.mem_filter.mp hr).1, assigned⟩)
  exact {
    unresolved := by
      refine ⟨_, rfl, fun r hr => ?_⟩
      obtain ⟨found, hfound⟩ := legible.exists_covering? hr
      rw [Bool.not_eq_true', isLocated_eq_false_iff hfound]
    binned := by
      refine ⟨bearers tablets, fun r _ hleft => ?_, fun r hr hleft => ?_,
        ranges_spread_located tablets ranges⟩
      · have := (List.mem_filter.mp hleft).2
        rw [Bool.not_eq_true'] at this
        simp [bearers, this]
      · refine covering?_eq_bearers ?_
        by_contra out
        exact hleft (List.mem_filter.mpr ⟨hr, by simpa using out⟩)
    wellFormed := Binning.wellFormed_ofAssignments _
    filled := Binning.filled_ofAssignments _
    clips := by
      intro location extent r hr
      dsimp only [Binning.spread] at hr
      rw [Binning.ranges_ofAssignments] at hr
      obtain ⟨a, ha, rfl⟩ := List.mem_map.mp hr
      obtain ⟨assigned, same⟩ := List.mem_filter.mp ha
      exact (Extent.clips_congr (Bool.and_eq_true_iff.mp same).2 _).mp (clips a assigned)
    parts := by
      intro node bins hbins
      refine Result.exists_mapM fun bin hbin => Result.exists_mapM fun r hr => ?_
      obtain ⟨a, ha, extent, range⟩ := Binning.mem_assignments_of_binsAt hbins hbin hr
      obtain ⟨-, part⟩ := clips_of_mem_assignments clips ha
      rwa [extent, range] at part }

end Located

/-- The cached locator resolves ranges exactly among the tablets that it is told of, if these are
legible, and asks for nothing else. -/
theorem Locator.resolve_of_legible {ω : Type} {cat : Catalog ω} {id : TableId}
    {ranges : List KeyRange} {scene scene' : Scene (Cached ω)} {ts : List Tablet}
    (asked : outcome (tablets cat id) scene = (.ok ts, scene'))
    (legible : Tablet.Legible ts ranges) :
    ∃ l notes, outcome ((cached cat).resolve id ranges) scene = (.ok l, ⟨scene'.world, notes⟩) ∧
      l.Exact ts ranges := by
  obtain ⟨l, located, exact_l⟩ := Located.exact_of_legible legible
  obtain ⟨notes, run⟩ := outcome_resolve asked ranges
  rw [Result.bind_ok, located] at run
  exact ⟨l, notes, run, exact_l⟩

/-- A range with rows of the first half only. -/
def KeyRange.inLowerHalf : KeyRange :=
  ⟨some ⟨.text "a", .bool true⟩, some ⟨.text "c", .bool false⟩, by decide⟩

/-- Of a table whose upper half is not hosted, the ranges with rows of it are left as they are
given, and the one between them is assigned to the lower half. -/
theorem Locator.resolve_halfHosted : ∃ l notes world,
    outcome ((cached Registry.catalog).resolve (.text "1")
      [.acrossHalves, .inLowerHalf, .acrossHalves]) ⟨⟨.halfHosted, .empty 5⟩, []⟩ =
        (.ok l, ⟨world, notes⟩) ∧
      l.Exact [⟨.lowerHalf, some (.text "a:1"), none⟩, ⟨.upperHalf, none, none⟩]
        [.acrossHalves, .inLowerHalf, .acrossHalves] ∧
      l.unresolved = [.acrossHalves, .acrossHalves] ∧
      l.binning.ranges (.text "a:1") .lowerHalf = [.inLowerHalf] := by
  have asked : outcome (tablets Registry.catalog (.text "1")) ⟨⟨.halfHosted, .empty 5⟩, []⟩ =
      (.ok [⟨.lowerHalf, some (.text "a:1"), none⟩, ⟨.upperHalf, none, none⟩],
        ⟨⟨.halfHosted, _⟩, []⟩) := rfl
  have legible : Tablet.Legible [⟨.lowerHalf, some (.text "a:1"), none⟩,
      ⟨.upperHalf, none, none⟩] [.acrossHalves, .inLowerHalf, .acrossHalves] := by decide
  obtain ⟨l, notes, run, all⟩ := resolve_of_legible asked legible
  obtain rfl : l = ⟨.ofAssignments [⟨.text "a:1", .lowerHalf, .inLowerHalf⟩],
      [.acrossHalves, .acrossHalves]⟩ := Except.ok.inj (congrArg Prod.fst run).symm
  exact ⟨_, notes, _, run, all, rfl, by decide⟩

end ScanPlanner
