import ScanPlanner.Proofs.Splitting

/-!
# What the splits of spread ranges read

Splits made of ranges that were spread over tablets which cover them hold the keys of these ranges:
no key is lost where tablets overlap, leave a hole elsewhere or share a bin, and none is added
(`Splitting.anyHolds_iff_of_carryAll`, `Splitting.anyHolds_iff_of_wholes`). If neither the ranges
nor the tablets overlap, no key is read twice (`Splitting.pairwise_disjoint_of_carryAll`), and each
range that is read lies in one tablet and is read where that tablet is
(`Splitting.exists_owner_of_carryAll`). -/

namespace ScanPlanner

/-! ## Spread ranges -/

namespace Tablet

variable {node : Tablet → Address} {tablets : List Tablet} {ranges : List KeyRange}

theorem mem_assigned {a : Assignment} :
    a ∈ ranges.flatMap (assigned node tablets) ↔
      ∃ r ∈ ranges, ∃ t ∈ coverers tablets r, a = ⟨node t, t.extent, r⟩ := by
  simp [assigned, eq_comm]

/-- Every key of a range is in one of the extents to which the range is assigned, and nothing
outside of the ranges is. So the assignments hold the keys that were asked for, no more and no
less. -/
theorem exists_assigned_iff (node : Tablet → Address)
    (covered : ∀ r ∈ ranges, Cover tablets r) (k : RowKey) :
    (∃ a ∈ ranges.flatMap (assigned node tablets), k ∈ a.extent.rows ∧ k ∈ a.range) ↔
      KeyRange.AnyHolds ranges k := by
  constructor
  · rintro ⟨a, ha, -, hk⟩
    obtain ⟨r, hr, t, -, rfl⟩ := mem_assigned.mp ha
    exact ⟨r, hr, hk⟩
  · rintro ⟨r, hr, hk⟩
    obtain ⟨t, ht, rows⟩ := (covered r hr).exists_mem hk
    exact ⟨_, mem_assigned.mpr ⟨r, hr, t, ht, rfl⟩, rows, hk⟩

/-- Of ranges and extents that do not overlap, no two assignments have a key in common: they differ
in the range or in the extent, and a common key would lie in both of either. -/
theorem pairwise_assigned (node : Tablet → Address)
    (apart : Apart tablets) (disjoint : ranges.Pairwise KeyRange.Disjoint) :
    (ranges.flatMap (assigned node tablets)).Pairwise fun a a' =>
      ∀ k, ¬ ((k ∈ a.extent.rows ∧ k ∈ a.range) ∧ k ∈ a'.extent.rows ∧ k ∈ a'.range) := by
  rw [List.pairwise_flatMap]
  constructor
  · -- the same range in different extents
    intro r _
    unfold assigned
    rw [List.pairwise_map]
    refine (List.Pairwise.sublist (coverers_sublist tablets r) apart).imp ?_
    rintro t u h k ⟨⟨hk, -⟩, hk', -⟩
    exact h k ⟨hk, hk'⟩
  · -- different ranges
    refine disjoint.imp ?_
    rintro r r' h a ha a' ha' k ⟨⟨-, hk⟩, -, hk'⟩
    obtain ⟨t, -, rfl⟩ := List.mem_map.mp ha
    obtain ⟨t', -, rfl⟩ := List.mem_map.mp ha'
    exact h k ⟨hk, hk'⟩

end Tablet

/-- A walk through a binning that was spread over tablets comes to what was assigned, each
assignment once. -/
theorem Binning.perm_items_spread {γ : Type} {g : Assignment → γ} (hg : Assignment.Respects g)
    {node : Tablet → Address} {tablets : List Tablet} {ranges : List KeyRange} {bins : List Bin}
    (h : (spread node tablets ranges).items = .ok bins) :
    ((bins.flatMap Bin.assignments).map g).Perm
      ((ranges.flatMap (Tablet.assigned node tablets)).map g) :=
  ((perm_items (wellFormed_ofAssignments _) h).map g).trans (perm_ofAssignments hg _)

/-- What some assignment of the ranges is like, some assignment of a bin is like, and the other way
round, as far as equal nodes and extents are not told apart. -/
theorem Binning.exists_item_iff {γ : Type} {g : Assignment → γ} (hg : Assignment.Respects g)
    {node : Tablet → Address} {tablets : List Tablet} {ranges : List KeyRange} {bins : List Bin}
    (h : (spread node tablets ranges).items = .ok bins) (Q : γ → Prop) :
    (∃ a ∈ bins.flatMap Bin.assignments, Q (g a)) ↔
      ∃ a ∈ ranges.flatMap (Tablet.assigned node tablets), Q (g a) := by
  have perm := perm_items_spread hg h
  constructor
  · rintro ⟨a, ha, hQ⟩
    obtain ⟨a', ha', e⟩ := List.mem_map.mp (perm.mem_iff.mp (List.mem_map_of_mem ha))
    exact ⟨a', ha', e ▸ hQ⟩
  · rintro ⟨a, ha, hQ⟩
    obtain ⟨a', ha', e⟩ := List.mem_map.mp (perm.mem_iff.mpr (List.mem_map_of_mem ha))
    exact ⟨a', ha', e ▸ hQ⟩

/-- If two lists go together item by item, one has an item with a property where the other one
does. -/
theorem exists_iff_of_forall₂ {α β : Type} {R : α → β → Prop} {P : α → Prop} {Q : β → Prop}
    {xs : List α} {ys : List β} (h : List.Forall₂ R xs ys) (hPQ : ∀ x y, R x y → (P x ↔ Q y)) :
    (∃ x ∈ xs, P x) ↔ ∃ y ∈ ys, Q y := by
  induction h with
  | nil => simp
  | cons head _ ih => simp only [List.exists_mem_cons_iff, hPQ _ _ head, ih]

/-! ## Keys that are read -/

namespace Splitting

variable {named : Address → List Json → Prop} {f : SplitFrame} {node : Tablet → Address}
  {tablets : List Tablet} {ranges : List KeyRange} {splits : List Split}

/-- The ranges of splits are those that they read, whatever hosts they name. -/
theorem flatMap_ranges (splits : List Split) :
    splits.flatMap Split.ranges = (splits.flatMap Split.reads).map Prod.fst := by
  rw [List.map_flatMap]
  refine List.flatMap_congr fun s _ => ?_
  unfold Split.reads
  rw [List.map_map]
  exact (List.map_id _).symm

theorem respects_rows : Assignment.Respects fun a => (a.extent.rows, a.range) :=
  fun _ _ _ he hr => Prod.ext (Extent.rows_eq_of_beq he) hr

/-- Splits that carry the whole binning hold the keys of the ranges that were spread: clipping loses
none, because the tablets cover each range. -/
theorem anyHolds_iff_of_carryAll (covered : ∀ r ∈ ranges, Tablet.Cover tablets r)
    (h : CarryAll named f (.spread node tablets ranges) splits) (k : RowKey) :
    KeyRange.AnyHolds (splits.flatMap Split.ranges) k ↔ KeyRange.AnyHolds ranges k := by
  obtain ⟨bins, hitems, carry⟩ := h
  -- which hosts the splits name does not matter for the keys
  have read : KeyRange.AnyHolds (splits.flatMap Split.ranges) k ↔
      ∃ x ∈ splits.flatMap Split.reads, k ∈ x.1 := by
    unfold KeyRange.AnyHolds
    rw [flatMap_ranges]
    simp only [List.mem_map, exists_exists_and_eq_and]
  calc KeyRange.AnyHolds (splits.flatMap Split.ranges) k
      ↔ ∃ x ∈ splits.flatMap Split.reads, k ∈ x.1 := read
    _ ↔ ∃ a ∈ bins.flatMap Bin.assignments, k ∈ a.extent.rows ∧ k ∈ a.range :=
        (exists_iff_of_forall₂ carry.reads fun a x hx => (KeyRange.mem_clip hx.1).symm).symm
    _ ↔ ∃ a ∈ ranges.flatMap (Tablet.assigned node tablets), k ∈ a.extent.rows ∧ k ∈ a.range :=
        Binning.exists_item_iff respects_rows hitems fun p => k ∈ p.1 ∧ k ∈ p.2
    _ ↔ KeyRange.AnyHolds ranges k := Tablet.exists_assigned_iff node covered k

/-- Splits that read the ranges of the bins, whole, hold the keys of the ranges: each of these is in
some bin. -/
theorem anyHolds_iff_of_wholes (covered : ∀ r ∈ ranges, Tablet.Cover tablets r) {bins : List Bin}
    (hitems : (Binning.spread node tablets ranges).items = .ok bins) (k : RowKey) :
    KeyRange.AnyHolds (bins.flatMap Bin.ranges) k ↔ KeyRange.AnyHolds ranges k := by
  have held : KeyRange.AnyHolds (bins.flatMap Bin.ranges) k ↔
      ∃ a ∈ bins.flatMap Bin.assignments, k ∈ a.range := by
    have ranges_eq : bins.flatMap Bin.ranges =
        (bins.flatMap Bin.assignments).map Assignment.range := by
      rw [List.map_flatMap]
      refine List.flatMap_congr fun bin _ => ?_
      unfold Bin.assignments
      rw [List.map_map]
      exact (List.map_id _).symm
    unfold KeyRange.AnyHolds
    rw [ranges_eq]
    simp only [List.mem_map, exists_exists_and_eq_and]
  rw [held, Binning.exists_item_iff (g := Assignment.range) (fun _ _ _ _ hr => hr) hitems (k ∈ ·)]
  constructor
  · rintro ⟨a, ha, hk⟩
    obtain ⟨r, hr, t, -, rfl⟩ := Tablet.mem_assigned.mp ha
    exact ⟨r, hr, hk⟩
  · intro h
    -- a range that is covered is assigned to some tablet, or its keys would be lost
    obtain ⟨a, ha, -, hk⟩ := (Tablet.exists_assigned_iff node covered k).mpr h
    exact ⟨a, ha, hk⟩

/-- If two lists go together item by item, what holds between any two items of one holds between
those of the other one. -/
theorem pairwise_of_forall₂ {α β : Type} {R : α → β → Prop} {P : α → α → Prop} {Q : β → β → Prop}
    {xs : List α} {ys : List β} (h : List.Forall₂ R xs ys)
    (hPQ : ∀ x y x' y', R x y → R x' y' → P x x' → Q y y') (hP : xs.Pairwise P) :
    ys.Pairwise Q := by
  induction h with
  | nil => exact .nil
  | @cons x y xs ys head tail ih =>
    obtain ⟨first, rest⟩ := List.pairwise_cons.mp hP
    refine List.pairwise_cons.mpr ⟨?_, ih rest⟩
    -- the head against each item of the tail, by an induction of its own
    clear ih rest hP
    induction tail with
    | nil => simp
    | cons head' _ ih' =>
      obtain ⟨here, later⟩ := List.forall_mem_cons.mp first
      exact List.forall_mem_cons.mpr ⟨hPQ _ _ _ _ head head' here, ih' later⟩

/-- No two of their ranges hold the same key, if no two tablets and no two of the requested ranges
do. -/
theorem pairwise_disjoint_of_carryAll
    (apart : Tablet.Apart tablets) (disjoint : ranges.Pairwise KeyRange.Disjoint)
    (h : CarryAll named f (.spread node tablets ranges) splits) :
    (splits.flatMap Split.ranges).Pairwise KeyRange.Disjoint := by
  obtain ⟨bins, hitems, carry⟩ := h
  have perm := Binning.perm_items_spread respects_rows hitems
  -- the order of the bins does not matter, since the relation is symmetric
  have assigned := Tablet.pairwise_assigned node apart disjoint
  have spread : ((ranges.flatMap (Tablet.assigned node tablets)).map
      fun a => (a.extent.rows, a.range)).Pairwise fun p q =>
        ∀ k, ¬ ((k ∈ p.1 ∧ k ∈ p.2) ∧ k ∈ q.1 ∧ k ∈ q.2) := by
    rw [List.pairwise_map]
    exact assigned
  rw [← List.Perm.pairwise_iff (fun h k both => h k both.symm) perm, List.pairwise_map] at spread
  rw [flatMap_ranges, List.pairwise_map]
  refine pairwise_of_forall₂ carry.reads ?_ spread
  rintro a x a' x' ⟨clip, -⟩ ⟨clip', -⟩ h k ⟨hk, hk'⟩
  exact h k ⟨(KeyRange.mem_clip clip).mp hk, (KeyRange.mem_clip clip').mp hk'⟩

/-- Each range that is read lies in one of the tablets and in no other, and it is read at the hosts
of the node of that tablet. -/
theorem exists_owner_of_carryAll {lookup : String → Result Json}
    (apart : Tablet.Apart tablets)
    (h : CarryAll (fun node names => hostNames lookup node = .ok names) f
      (.spread node tablets ranges) splits)
    {s : Split} (hs : s ∈ splits) {r : KeyRange} (hr : r ∈ s.ranges) :
    ∃ t ∈ tablets, t.extent.rows.span.Covers r.span ∧
      (∀ u ∈ tablets, u.extent.rows.span.Covers r.span → u = t) ∧
      hostNames lookup (node t) = .ok s.locations := by
  obtain ⟨bins, hitems, carry⟩ := h
  -- what is read belongs to an assignment of a bin
  have read : (r, s.locations) ∈ splits.flatMap Split.reads :=
    List.mem_flatMap.mpr ⟨s, hs, List.mem_map_of_mem hr⟩
  obtain ⟨a, ha, clip, names⟩ := Result.exists_of_forall₂_of_mem carry.reads read
  -- the assignment that the bin has it from, up to values that mean the same
  have respects : Assignment.Respects fun a => (a.location.canonical, a.extent.identity) :=
    fun _ _ hl he _ => Prod.ext (Json.canonical_eq_of_beq hl) (of_decide_eq_true he)
  obtain ⟨a', ha', same⟩ := (Binning.exists_item_iff respects hitems
    (· = (a.location.canonical, a.extent.identity))).mp ⟨a, ha, rfl⟩
  obtain ⟨_, -, t, ht, rfl⟩ := Tablet.mem_assigned.mp ha'
  rw [Prod.mk.injEq] at same
  obtain ⟨location, extent⟩ := same
  have rows : t.extent.rows = a.extent.rows := Extent.rows_eq_of_beq (decide_eq_true extent)
  have covers : t.extent.rows.span.Covers r.span := by
    rw [rows]
    exact Span.covers_of_meet?_left (KeyRange.clip_eq_ok clip)
  -- nodes that are equal need not be the same value, but those that have a host are texts
  obtain ⟨address, text⟩ := exists_text_of_hostNames names
  have node_eq : node t = a.location := by
    rw [text] at location ⊢
    exact Json.eq_text_of_canonical location
  have mem := (Tablet.coverers_sublist tablets _).subset ht
  refine ⟨t, mem, covers, fun u hu => ?_, ?_⟩
  · exact apart.eq_of_covers mem hu covers
  · rw [node_eq]
    exact names

end Splitting

end ScanPlanner
