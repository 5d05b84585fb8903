import ScanPlanner.Proofs.Locality

/-!
# Who owns a key

A range that is binned is assigned to the extents of the tablets that cover it, so each of its keys
lies in at least one of these. It lies in one alone exactly if the covering tablets do not overlap
within the range (`Store.ownsOnce_iff_apartWithin`). A chain with a hole is reported back, one with
an overlap is not. A table that is caught while two tablets merge lists both of them and the merged
one, and its rows are then assigned twice (`Registry.not_ownsOnce_halfMerged`).
-/

namespace ScanPlanner

/-! ## Owners -/

namespace Binning

/-- The range is assigned to the extent, on whatever node. -/
def Assigns (b : Binning) (r : KeyRange) (e : Extent) : Prop := ∃ node, r ∈ b.ranges node e

/-- Each key of the range lies in one of the extents that the range is assigned to, and in no other
one. -/
structure OwnsOnce (b : Binning) (r : KeyRange) : Prop where
  total : ∀ k ∈ r, ∃ e, b.Assigns r e ∧ k ∈ e.rows
  unique : ∀ k ∈ r, ∀ e e', b.Assigns r e → b.Assigns r e' → k ∈ e.rows → k ∈ e'.rows →
    (e == e') = true

end Binning

namespace Tablet

/-- No two different extents of the tablets have a key of the range in common. What they have in
common outside of the range does not matter to it. -/
def ApartWithin (r : KeyRange) (tablets : List Tablet) : Prop :=
  ∀ t ∈ tablets, ∀ u ∈ tablets, ∀ k ∈ r, k ∈ t.extent.rows → k ∈ u.extent.rows →
    (t.extent == u.extent) = true

/-- Tablets that do not overlap at all do not overlap within a range. -/
theorem Apart.apartWithin {tablets : List Tablet} (h : Apart tablets) (r : KeyRange) :
    ApartWithin r tablets := by
  intro t ht u hu k _ hkt hku
  by_cases same : t = u
  · rw [same]
    exact BEq.rfl
  · exact absurd ⟨hkt, hku⟩ (h.disjoint ht hu same k)

end Tablet

namespace Binning

variable {node : Tablet → Address} {tablets : List Tablet} {ranges : List KeyRange} {r : KeyRange}

/-- A range that was spread is assigned to the extents of its coverers. The node that it is assigned
on is left open. -/
theorem assigns_spread (hr : r ∈ ranges) {e : Extent} :
    (spread node tablets ranges).Assigns r e ↔
      ∃ t ∈ Tablet.coverers tablets r, (t.extent == e) = true := by
  unfold Assigns
  simp only [ranges_spread, List.mem_flatMap, List.mem_map, List.mem_filter, Bool.and_eq_true]
  constructor
  · rintro ⟨_, _, -, t, ⟨ht, -, he⟩, rfl⟩
    exact ⟨t, ht, he⟩
  · rintro ⟨t, ht, he⟩
    exact ⟨node t, r, hr, t, ⟨ht, BEq.rfl, he⟩, rfl⟩

/-- A range that is covered is owned once exactly if the tablets that cover it do not overlap within
it. -/
theorem ownsOnce_spread_iff (hr : r ∈ ranges) (covered : Tablet.Cover tablets r) :
    (spread node tablets ranges).OwnsOnce r ↔
      Tablet.ApartWithin r (Tablet.coverers tablets r) := by
  constructor
  · intro owns t ht u hu k hk hkt hku
    exact owns.unique k hk _ _ ((assigns_spread hr).mpr ⟨t, ht, BEq.rfl⟩)
      ((assigns_spread hr).mpr ⟨u, hu, BEq.rfl⟩) hkt hku
  · intro apart
    refine ⟨fun k hk => ?_, fun k hk e e' he he' hke hke' => ?_⟩
    · -- a hole would have kept the range from being binned
      obtain ⟨t, ht, rows⟩ := covered.exists_mem hk
      exact ⟨t.extent, (assigns_spread hr).mpr ⟨t, ht, BEq.rfl⟩, rows⟩
    · obtain ⟨t, ht, hte⟩ := (assigns_spread hr).mp he
      obtain ⟨u, hu, hue⟩ := (assigns_spread hr).mp he'
      have hkt : k ∈ t.extent.rows := Extent.rows_eq_of_beq hte ▸ hke
      have hku : k ∈ u.extent.rows := Extent.rows_eq_of_beq hue ▸ hke'
      calc (e == e') = (t.extent == e') := BEq.congr_left (BEq.symm hte)
        _ = (t.extent == u.extent) := BEq.congr_right (BEq.symm hue)
        _ = true := apart t ht u hu k hk hkt hku

end Binning

/-! ## Overlaps in the metadata -/

/-- Of a table with these tablets, a range that is not reported back as unresolved, or that is
binned offline, has one owner for each of its keys exactly if the tablets that cover it do not
overlap within it. -/
theorem Store.ownsOnce_iff_apartWithin {ω : Type} (store : Store ω) {w : ω} {id : TableId}
    {tablets : List Tablet} {ranges : List KeyRange} {r : KeyRange}
    (listed : store.tabletsNow w id = .ok tablets) (scalar : id.isScalar = true) (hr : r ∈ ranges)
    {known : Lru TableId (List Tablet)} (forgotten : known.find? id = none)
    (wellFormed : known.WellFormed) (notes : List Note) :
    (∀ l, (outcome ((Locator.cached store.catalog).resolve id ranges) ⟨⟨w, known⟩, notes⟩).1 =
        .ok l → r ∉ l.unresolved →
      (l.binning.OwnsOnce r ↔ Tablet.ApartWithin r (Tablet.coverers tablets r))) ∧
    (∀ b, (outcome (Offline.bin store.catalog id ranges) ⟨w, notes⟩).1 = .ok (some b) →
      (b.OwnsOnce r ↔ Tablet.ApartWithin r (Tablet.coverers tablets r))) := by
  constructor
  · intro l h resolved
    obtain ⟨_, _, run, -, -⟩ := store.outcome_resolve ranges scalar w forgotten wellFormed notes
    rw [run] at h
    obtain ⟨now, hnow, h⟩ := Result.bind_eq_ok.mp h
    obtain rfl : now = tablets :=
      Except.ok.inj ((Store.tabletsNow_of_tabletsVia hnow).symm.trans listed)
    -- a range is either located or reported back
    rw [Located.ofTablets_eq_ok h] at resolved ⊢
    have located : Located.isLocated now r = true := by
      simpa [hr] using resolved
    exact Binning.ownsOnce_spread_iff (List.mem_filter.mpr ⟨hr, located⟩)
      (Located.cover_of_isLocated located)
  · intro b h
    obtain ⟨_, run⟩ := store.outcome_bin id ranges w notes
    rw [run] at h
    have h : store.offline w id ranges = .ok (some b) := h
    obtain ⟨now, hnow, released, rfl⟩ := Store.offline_eq_some h
    obtain rfl : now = tablets := Except.ok.inj (hnow.symm.trans listed)
    exact Binning.ownsOnce_spread_iff hr (Offline.cover_of_isReleased (released r hr))

/-- The tablets of a table that is split once. -/
def Registry.halvesTablets (lower upper : Option Address) : List Tablet :=
  [⟨.lowerHalf, lower, none⟩, ⟨.upperHalf, upper, none⟩]

/-- Of a table that is split once, a range across both halves has one owner for each key, online and
offline. -/
theorem Registry.ownsOnce_halves :
    (∃ l, (outcome ((Locator.cached store.catalog).resolve (.text "1") [.acrossHalves])
        ⟨⟨.halves .online (some (.text "a:1")) (some (.text "b:1")), .empty 1⟩, []⟩).1 = .ok l ∧
      l.binning.OwnsOnce .acrossHalves) ∧
    ∃ b, (outcome (Offline.bin store.catalog (.text "1") [.acrossHalves])
        ⟨.halves .offline none none, []⟩).1 = .ok (some b) ∧ b.OwnsOnce .acrossHalves := by
  have wellFormed : (Lru.empty 1 : Lru TableId (List Tablet)).WellFormed := Lru.wellFormed_empty 1
  have asked : KeyRange.acrossHalves ∈ [KeyRange.acrossHalves] := List.mem_cons_self
  have apart (lower upper : Option Address) : Tablet.ApartWithin .acrossHalves
      (Tablet.coverers (halvesTablets lower upper) .acrossHalves) :=
    Tablet.Apart.apartWithin
      (List.Pairwise.sublist (Tablet.coverers_sublist _ _) Planning.apart_halves) _
  constructor
  · have listed : store.tabletsNow (.halves .online (some (.text "a:1")) (some (.text "b:1")))
        (.text "1") = .ok (halvesTablets (some (.text "a:1")) (some (.text "b:1"))) := rfl
    have once := (store.ownsOnce_iff_apartWithin listed rfl asked rfl wellFormed []).1
      ⟨.spread Tablet.host (halvesTablets (some (.text "a:1")) (some (.text "b:1")))
        [.acrossHalves], []⟩ (by decide +kernel) List.not_mem_nil
    exact ⟨_, by decide +kernel, once.mpr (apart _ _)⟩
  · have listed : store.tabletsNow (.halves .offline none none) (.text "1") =
        .ok (halvesTablets none none) := rfl
    have once := (store.ownsOnce_iff_apartWithin listed rfl asked rfl wellFormed []).2
      (.spread Offline.lastAddress (halvesTablets none none) [.acrossHalves]) (by decide +kernel)
    exact ⟨_, by decide +kernel, once.mpr (apart _ _)⟩

/-! ### A merge caught halfway -/

/-- All rows of the table. -/
def Extent.bothHalves : Extent := ⟨.text "1", none, none, trivial⟩

namespace Registry

/-- A table that is created with two tablets, when the one that they are merged into has been put in
and they have not been removed yet. -/
def halfMerged : Result Registry := do
  let r ← empty.apply (.create (.text "t") [some (.text "m")]
    (.listed [some (.text "a:1"), some (.text "b:1")]) .online)
  r.apply (.put (.text "t") ⟨.bothHalves, some (.text "c:1"), some (.text "c:1")⟩)

/-- The tablets of the table, hosted or not. -/
def halfMergedTablets (hosted : Bool) : List Tablet :=
  let tablet (e : Extent) (address : Address) : Tablet :=
    ⟨e, if hosted then some address else none, some address⟩
  [tablet .lowerHalf (.text "a:1"), tablet .upperHalf (.text "b:1"),
    tablet .bothHalves (.text "c:1")]

/-- While both tablets and the merged one are listed, a range across the halves is neither reported
back as unresolved nor held back offline. Its key `d` then has two owners: the lower half, and the
tablet that it is merged into. -/
theorem not_ownsOnce_halfMerged : (Extent.lowerHalf == Extent.bothHalves) = false ∧
    (∀ rows ∈ [KeyRange.acrossHalves, Extent.lowerHalf.rows, Extent.bothHalves.rows],
      RowKey.text "d" ∈ rows) ∧
    ∃ r r', halfMerged = .ok r ∧ r.apply (.setState (.text "t") .offline) = .ok r' ∧
      (∃ l, (outcome ((Locator.cached store.catalog).resolve (.text "1") [.acrossHalves])
          ⟨⟨r, .empty 1⟩, []⟩).1 = .ok l ∧ l.unresolved = [] ∧
        l.binning.Assigns .acrossHalves .lowerHalf ∧
        l.binning.Assigns .acrossHalves .bothHalves) ∧
      ∃ b, (outcome (Offline.bin store.catalog (.text "1") [.acrossHalves]) ⟨r', []⟩).1 =
          .ok (some b) ∧
        b.Assigns .acrossHalves .lowerHalf ∧ b.Assigns .acrossHalves .bothHalves := by
  have assigned (node : Tablet → Address) (hosted : Bool) (e : Extent)
      (he : ∃ t ∈ Tablet.coverers (halfMergedTablets hosted) .acrossHalves,
        (t.extent == e) = true) :
      (Binning.spread node (halfMergedTablets hosted) [.acrossHalves]).Assigns .acrossHalves e :=
    (Binning.assigns_spread List.mem_cons_self).mpr he
  refine ⟨by decide, by decide, _, _, rfl, rfl, ?_, ?_⟩
  · exact ⟨⟨.spread Tablet.host (halfMergedTablets true) [.acrossHalves], []⟩, by decide +kernel,
      rfl, assigned _ _ _ (by decide), assigned _ _ _ (by decide)⟩
  · exact ⟨.spread Offline.lastAddress (halfMergedTablets false) [.acrossHalves],
      by decide +kernel, assigned _ _ _ (by decide), assigned _ _ _ (by decide)⟩

end Registry

end ScanPlanner
