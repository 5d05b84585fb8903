import ScanPlanner.Proofs.Holders
import ScanPlanner.Proofs.Holes
import ScanPlanner.Proofs.Telling

/-!
# Ranges that stay whole

What the splits of ranges that are not cut are, told without the binning that they are made from:
one split for each range that was requested, in ascending order, at the hosts of the tablets that
meet the range, in the order of the tablets and each host once (`Splitting.Unclipped`). If the
tablets are those of one table and do not overlap, the splits are made just if they are of this kind
(`Splitting.wholesBy_eq_ok_iff`). So it makes no difference in which order the ranges were
requested, or how often.
-/

namespace ScanPlanner

/-! ## Tablets of one table -/

namespace Tablet

/-- Tablets of one table that do not overlap, and that can be compared with the ranges. Of such
tablets the holders of a range can be put in one order. -/
structure Tidy (tablets : List Tablet) (ranges : List KeyRange) : Prop where
  legible : Legible tablets ranges
  apart : Apart tablets
  oneTable : ∀ t ∈ tablets, ∀ u ∈ tablets, (t.extent.tableId == u.extent.tableId) = true

variable {tablets : List Tablet} {ranges : List KeyRange}

/-- Of the ranges only the keys matter, so fewer ranges, or others with the same ends, will do. -/
theorem Tidy.of_keys (h : Tidy tablets ranges) {others : List KeyRange}
    (sub : others.flatMap KeyRange.keys ⊆ ranges.flatMap KeyRange.keys) : Tidy tablets others where
  legible := {
    keys := h.legible.keys.subset (List.append_subset.mpr
      ⟨List.subset_append_left _ _, List.subset_append_of_subset_right _ sub⟩)
    ids := h.legible.ids
    addresses := h.legible.addresses }
  apart := h.apart
  oneTable := h.oneTable

/-- Fewer ranges can be compared with the tablets as well. -/
theorem Tidy.of_subset (h : Tidy tablets ranges) {others : List KeyRange} (sub : others ⊆ ranges) :
    Tidy tablets others := by
  refine h.of_keys fun k hk => ?_
  obtain ⟨r, hr, hk⟩ := List.mem_flatMap.mp hk
  exact List.mem_flatMap.mpr ⟨r, sub hr, hk⟩

section

variable (h : Tidy tablets ranges) {t t' : Tablet} (ht : t ∈ tablets) (ht' : t' ∈ tablets)
  {e e' : Extent} (he : (t.extent == e) = true) (he' : (t'.extent == e') = true)
include h ht ht' he he'

/-- Extents that are equal to those of the tablets are extents of one table. -/
theorem Tidy.sameTable : (e.tableId == e'.tableId) = true := by
  have own {t : Tablet} {e : Extent} (he : (t.extent == e) = true) :
      (t.extent.tableId == e.tableId) = true :=
    decide_eq_true (congrArg Prod.fst (of_decide_eq_true he : t.extent.identity = e.identity))
  exact BEq.trans (BEq.symm (own he)) (BEq.trans (h.oneTable t ht t' ht') (own he'))

/-- Extents that are equal to those of the tablets can be compared: their last rows are among the
keys of the tablets. -/
theorem Tidy.comparable : e.comparable e' = true := by
  have lasts {t : Tablet} (ht : t ∈ tablets) {e : Extent} (he : (t.extent == e) = true) :
      e.last.toList ⊆ tablets.flatMap (fun t => t.extent.rows.keys) ++
        ranges.flatMap KeyRange.keys := by
    refine List.Subset.trans e.last_subset_keys ?_
    rw [← Extent.rows_eq_of_beq he]
    exact keys_subset ht _
  exact Extent.comparable_of_alike (h.sameTable ht ht' he he')
    (h.legible.keys.alikeKeys (lasts ht he) (lasts ht' he'))

/-- They are ordered by their ends. -/
theorem Tidy.isBefore_iff :
    e.isBefore e' = true ↔ t.extent.rows.span.hi < t'.extent.rows.span.hi := by
  unfold Extent.isBefore
  rw [if_pos (h.sameTable ht ht' he he'), decide_eq_true_iff, ← Extent.hi_span_rows,
    ← Extent.hi_span_rows, ← Extent.rows_eq_of_beq he, ← Extent.rows_eq_of_beq he']

end

/-- Of tablets that do not overlap, only one has a cut. -/
theorem Apart.eq_of_has (h : Apart tablets) {t u : Tablet} (ht : t ∈ tablets) (hu : u ∈ tablets)
    {c : Cut} (hct : t.extent.rows.span.Has c) (hcu : u.extent.rows.span.Has c) : u = t := by
  by_contra different
  have disjoint := Extent.meet?_rows_eq_none (h.disjoint hu ht different)
  rcases Span.meet?_eq_none_iff.mp disjoint with le | le
  · exact absurd (lt_of_lt_of_le hcu.2 le) (not_lt.mpr hct.1)
  · exact absurd (lt_of_lt_of_le hct.2 le) (not_lt.mpr hcu.1)

/-- Of tablets that do not overlap, no two have the same rows. -/
theorem Apart.eq_of_rows_eq (h : Apart tablets) {t u : Tablet} (ht : t ∈ tablets)
    (hu : u ∈ tablets) (rows : t.extent.rows = u.extent.rows) : u = t :=
  h.eq_of_has ht hu (c := t.extent.rows.span.lo) ⟨le_refl _, t.extent.rows.span.lo_lt_hi⟩
    (rows ▸ ⟨le_refl _, t.extent.rows.span.lo_lt_hi⟩)

/-- The tablets that cover a range are those that meet it, if no two tablets overlap. Otherwise some
could meet it without being needed. -/
theorem Apart.mem_coverers_iff (h : Apart tablets) {range : KeyRange} (cover : Cover tablets range)
    {t : Tablet} : t ∈ coverers tablets range ↔ t ∈ tablets ∧ t.meets range = true := by
  obtain ⟨found, hfound⟩ := cover
  obtain ⟨sub, each, has⟩ := covering?_eq_some hfound
  rw [coverers, hfound]
  constructor
  · intro ht
    exact ⟨sub.subset ht, Option.isSome_iff_ne_none.mpr (each t ht)⟩
  · rintro ⟨ht, meets⟩
    -- a cut that the tablet has in common with the range is in a tablet that was found
    obtain ⟨behind, before⟩ := meets_iff.mp meets
    have common : range.span.Has (max range.span.lo t.extent.rows.span.lo) :=
      ⟨le_max_left _ _, max_lt range.span.lo_lt_hi before⟩
    obtain ⟨u, hu, hcu⟩ := has _ common
    have hct : t.extent.rows.span.Has (max range.span.lo t.extent.rows.span.lo) :=
      ⟨le_max_right _ _, max_lt behind t.extent.rows.span.lo_lt_hi⟩
    exact h.eq_of_has (sub.subset hu) ht hcu hct ▸ hu

/-- Tablets that do not overlap are different ones, since each has some rows. -/
theorem Apart.nodup (h : Apart tablets) : tablets.Nodup := by
  refine h.imp fun {t u} disjoint e => ?_
  subst e
  have lt := t.extent.rows.span.lo_lt_hi
  rcases Span.meet?_eq_none_iff.mp (Extent.meet?_rows_eq_none disjoint) with le | le
  · exact absurd lt (not_lt.mpr le)
  · exact absurd lt (not_lt.mpr le)

/-- Tablets in order have one order. -/
theorem Ordered.eq_of_perm {ts us : List Tablet} (h : Ordered ts) (h' : Ordered us)
    (perm : ts.Perm us) : ts = us := by
  -- a tablet is not empty, so two of them cannot each lie before the other
  refine List.Perm.eq_of_pairwise (fun t u _ _ le ge => ?_) h h' perm
  have := t.extent.rows.span.lo_lt_hi
  have := u.extent.rows.span.lo_lt_hi
  order

end Tablet

/-! ## What is assigned to whom -/

namespace Binning

variable {node : Tablet → Address} {tablets : List Tablet} {ranges : List KeyRange}
  {bins : List Bin}

/-- What the bins hold comes from a tablet that covers the range. The node and the extent are those
of the tablet, or equal ones. -/
theorem exists_coverer_of_mem_items (h : (spread node tablets ranges).items = .ok bins)
    {a : Assignment} (ha : a ∈ bins.flatMap Bin.assignments) :
    a.range ∈ ranges ∧ ∃ t ∈ Tablet.coverers tablets a.range,
      (node t == a.location) = true ∧ (t.extent == a.extent) = true := by
  have held := (perm_items (wellFormed_ofAssignments _) h).subset ha
  obtain ⟨a', ha', location, extent, range⟩ := exists_of_mem_assignments held
  obtain ⟨r, hr, t, ht, rfl⟩ := Tablet.mem_assigned.mp ha'
  cases range
  exact ⟨hr, t, ht, location, extent⟩

/-- Each tablet that covers a range has got it. -/
theorem exists_item_of_mem_coverers (h : (spread node tablets ranges).items = .ok bins)
    {r : KeyRange} (hr : r ∈ ranges) {t : Tablet} (ht : t ∈ Tablet.coverers tablets r) :
    ∃ a ∈ bins.flatMap Bin.assignments, a.range = r ∧ (node t == a.location) = true ∧
      (t.extent == a.extent) = true := by
  have respects : Assignment.Respects fun a =>
      (a.location.canonical, a.extent.identity, a.range) := by
    intro a a' location extent range
    exact Prod.ext (Json.canonical_eq_of_beq location)
      (Prod.ext (of_decide_eq_true extent) range)
  obtain ⟨a, ha, same⟩ := (exists_item_iff respects h
    (· = ((node t).canonical, t.extent.identity, r))).mpr
      ⟨_, Tablet.mem_assigned.mpr ⟨r, hr, t, ht, rfl⟩, rfl⟩
  simp only [Prod.mk.injEq] at same
  obtain ⟨location, extent, range⟩ := same
  exact ⟨a, ha, range, decide_eq_true location.symm, decide_eq_true extent.symm⟩

end Binning

namespace Splitting

/-! ## Unclipped splits -/

/-- The split reads the range, whole, at the hosts of the tablets that meet it: in the order of the
tablets, each host once, and without those that are not known. -/
def ReadsWhole (lookup : String → Result Json) (node : Tablet → Address) (f : SplitFrame)
    (tablets : List Tablet) (range : KeyRange) (split : Split) : Prop :=
  ∃ holders names, holders.Perm (tablets.filter (Tablet.meets range)) ∧ Tablet.Ordered holders ∧
    List.Forall₂ (fun t hosts => hostNames lookup (node t) = .ok hosts) holders names ∧
    split = f.split names.flatten.eraseDups (.single range)

/-- There is one split for each of the ranges, in strictly ascending order. A range that is asked
for more than once has a single split. -/
def Unclipped (lookup : String → Result Json) (node : Tablet → Address) (f : SplitFrame)
    (tablets : List Tablet) (ranges : List KeyRange) (splits : List Split) : Prop :=
  ∃ ascending : List KeyRange, ascending.Pairwise (· < ·) ∧ (∀ r, r ∈ ascending ↔ r ∈ ranges) ∧
    List.Forall₂ (ReadsWhole lookup node f tablets) ascending splits

variable {lookup : String → Result Json} {node : Tablet → Address} {f : SplitFrame}
  {tablets : List Tablet} {ranges others : List KeyRange} {range : KeyRange}
  {split split' : Split} {splits splits' : List Split}

/-- Lookups tell the hosts of tablets in one way only, as they are a function of the address. -/
theorem names_unique {holders : List Tablet} {names names' : List (List Json)}
    (h : List.Forall₂ (fun t hosts => hostNames lookup (node t) = .ok hosts) holders names)
    (h' : List.Forall₂ (fun t hosts => hostNames lookup (node t) = .ok hosts) holders names') :
    names = names' := by
  induction h generalizing names' with
  | nil =>
    cases h'
    rfl
  | cons head _ ih =>
    cases h' with
    | cons head' tail' =>
      rw [head, Except.ok.injEq] at head'
      rw [head', ih tail']

/-- A range is read at one list of hosts only: the tablets that meet it have one order, and each of
them has its hosts. -/
theorem ReadsWhole.unique (h : ReadsWhole lookup node f tablets range split)
    (h' : ReadsWhole lookup node f tablets range split') : split = split' := by
  obtain ⟨holders, names, perm, ordered, named, rfl⟩ := h
  obtain ⟨holders', names', perm', ordered', named', rfl⟩ := h'
  obtain rfl := ordered.eq_of_perm ordered' (perm.trans perm'.symm)
  rw [names_unique named named']

/-- The tablets, the ranges and the lookups tell the splits. So two ways to make them need not be
compared, if both come to this. -/
theorem Unclipped.unique (h : Unclipped lookup node f tablets ranges splits)
    (h' : Unclipped lookup node f tablets ranges splits') : splits = splits' := by
  obtain ⟨ascending, lt, same, each⟩ := h
  obtain ⟨ascending', lt', same', each'⟩ := h'
  obtain rfl := KeyRange.eq_of_pairwise_lt lt lt' fun r => (same r).trans (same' r).symm
  clear lt lt' same same'
  induction each generalizing splits' with
  | nil =>
    cases each'
    rfl
  | cons head _ ih =>
    cases each' with
    | cons head' tail' => rw [head.unique head', ih tail']

/-- Only which ranges there are matters, not how often or in which order. -/
theorem Unclipped.of_same (h : Unclipped lookup node f tablets ranges splits)
    (same : ∀ r, r ∈ others ↔ r ∈ ranges) : Unclipped lookup node f tablets others splits := by
  obtain ⟨ascending, lt, members, each⟩ := h
  exact ⟨ascending, lt, fun r => (members r).trans (same r).symm, each⟩

/-! ## The order of the holders -/

/-- The holder is a tablet on its node, up to values that mean the same. -/
def Stands (node : Tablet → Address) (holder : Extent × Address) (t : Tablet) : Prop :=
  (node t == holder.2) = true ∧ (t.extent == holder.1) = true

/-- If each item has a partner, there is a list of partners in the order of the items. -/
theorem exists_forall₂ {α β : Type} {R : α → β → Prop} {xs : List α}
    (h : ∀ x ∈ xs, ∃ y, R x y) : ∃ ys, List.Forall₂ R xs ys := by
  induction xs with
  | nil => exact ⟨[], .nil⟩
  | cons x xs ih =>
    obtain ⟨first, rest⟩ := List.forall_mem_cons.mp h
    obtain ⟨y, hy⟩ := first
    obtain ⟨ys, hys⟩ := ih rest
    exact ⟨y :: ys, .cons hy hys⟩

section

variable (tidy : Tablet.Tidy tablets ranges) {found : List Tablet} (sub : found ⊆ tablets)
  {holders : List (Extent × Address)}
include tidy sub

/-- Holders that stand for tablets can be compared, as the tablets can. -/
theorem Stands.comparable {holder holder' : Extent × Address}
    (h : ∃ t ∈ found, Stands node holder t) (h' : ∃ t ∈ found, Stands node holder' t) :
    holder.1.comparable holder'.1 = true := by
  obtain ⟨t, ht, -, extent⟩ := h
  obtain ⟨t', ht', -, extent'⟩ := h'
  exact tidy.comparable (sub ht) (sub ht') extent extent'

/-- Sorted holders stand for tablets none of which ends before the one in front of it. The order of
tablets that end at the same row is left open. -/
theorem exists_sorted_tablets (known : ∀ h ∈ holders, ∃ t ∈ found, Stands node h t)
    (all : ∀ t ∈ found, ∃ h ∈ holders, Stands node h t)
    {sorted : List (Extent × Address)} (h : Extent.sortOn Prod.fst holders = .ok sorted) :
    ∃ ts : List Tablet, List.Forall₂ (Stands node) sorted ts ∧ (∀ t, t ∈ ts ↔ t ∈ found) ∧
      ts.Pairwise fun t u => t.extent.rows.span.hi ≤ u.extent.rows.span.hi := by
  have perm : sorted.Perm holders := Sorting.perm_of_sort? h
  obtain ⟨ts, stand⟩ := exists_forall₂ fun x hx => known x (perm.subset hx)
  have mem {t : Tablet} (ht : t ∈ ts) : t ∈ found := by
    obtain ⟨_, -, ht, -⟩ := Result.exists_of_forall₂_of_mem stand ht
    exact ht
  have stands := stand.imp fun x t both => both.2
  refine ⟨ts, stands, fun t => ⟨mem, fun ht => ?_⟩, ?_⟩
  · -- the tablet that a holder stands for is told by its extent, as the tablets do not overlap
    obtain ⟨x, hx, -, extent⟩ := all t ht
    obtain ⟨u, hu, -, extent'⟩ :=
      Result.exists_of_forall₂_of_mem stands.flip (perm.symm.subset hx)
    have rows := (Extent.rows_eq_of_beq extent).trans (Extent.rows_eq_of_beq extent').symm
    exact tidy.apart.eq_of_rows_eq (sub ht) (sub (mem hu)) rows ▸ hu
  · have ascending : sorted.Pairwise fun x y => Cut.upTo x.1.last ≤ Cut.upTo y.1.last := by
      refine Sorting.pairwise_of_sort? (fun x : Extent × Address => Cut.upTo x.1.last)
        (fun x hx y hy => ?_) h
      obtain ⟨t, ht, -, extent⟩ := known x hx
      obtain ⟨u, hu, -, extent'⟩ := known y hy
      rw [Bool.not_eq_true', ← Bool.not_eq_true,
        tidy.isBefore_iff (sub hu) (sub ht) extent' extent, not_lt,
        Extent.rows_eq_of_beq extent, Extent.rows_eq_of_beq extent', Extent.hi_span_rows,
        Extent.hi_span_rows]
    refine pairwise_of_forall₂ stands (fun x t y u ht hu le => ?_) ascending
    rwa [Extent.rows_eq_of_beq ht.2, Extent.rows_eq_of_beq hu.2, Extent.hi_span_rows,
      Extent.hi_span_rows]

/-- Tablets none of which ends before the one in front of it lie one behind the other, once
repetitions are dropped: those that do not overlap and end later lie behind. -/
theorem ordered_eraseDups {ts : List Tablet} (known : ∀ t ∈ ts, t ∈ found)
    (ends : ts.Pairwise fun t u => t.extent.rows.span.hi ≤ u.extent.rows.span.hi) :
    Tablet.Ordered ts.eraseDups := by
  have mem {t : Tablet} (ht : t ∈ ts.eraseDups) : t ∈ tablets :=
    sub (known t (List.mem_eraseDups.mp ht))
  refine Tablet.ordered_of_sorted (fun t ht u hu => tidy.oneTable t (mem ht) u (mem hu)) ?_ ?_
  · exact (nodup_eraseDups ts).imp_of_mem fun ht hu ne => tidy.apart.disjoint (mem ht) (mem hu) ne
  · refine (ends.sublist (sublist_eraseDups ts)).imp_of_mem fun {t u} ht hu le => ?_
    rwa [← Bool.not_eq_true, tidy.isBefore_iff (mem hu) (mem ht) BEq.rfl BEq.rfl, not_lt]

end

/-! ## Splits that are made -/

/-- The names of the tablets' hosts are a function of the tablets, so lists of them can be permuted
along. -/
theorem exists_hosts {ts : List Tablet} {names : List (List Json)}
    (h : List.Forall₂ (fun t hosts => hostNames lookup (node t) = .ok hosts) ts names) :
    ∃ hosts : Tablet → List Json, names = ts.map hosts ∧
      ∀ t ∈ ts, hostNames lookup (node t) = .ok (hosts t) := by
  refine ⟨fun t => (hostNames lookup (node t)).toOption.getD [], ?_, fun t ht => ?_⟩
  · induction h with
    | nil => rfl
    | cons head _ ih =>
      rw [List.map_cons, head, ih]
      rfl
  · obtain ⟨hosts, -, named⟩ := Result.exists_of_forall₂_of_mem h.flip ht
    have named : hostNames lookup (node t) = .ok hosts := named
    beta_reduce
    rw [named]
    rfl

/-- Nodes that have hosts are texts, so a tablet that a holder stands for is on the same node, not
just on an equal one. -/
theorem names_of_stands {sorted : List (Extent × Address)} {ts : List Tablet}
    {names : List (List Json)} (stands : List.Forall₂ (Stands node) sorted ts)
    (named : List.Forall₂ (fun x hosts => hostNames lookup x.2 = .ok hosts) sorted names) :
    List.Forall₂ (fun t hosts => hostNames lookup (node t) = .ok hosts) ts names := by
  -- induction on the sorted pairs, one tablet and one list of hosts for each
  induction stands generalizing names with
  | nil =>
    cases named
    exact .nil
  | cons head _ ih =>
    cases named with
    | cons first rest =>
      refine .cons ?_ (ih rest)
      obtain ⟨address, text⟩ := exists_text_of_hostNames first
      have same := Json.canonical_eq_of_beq head.1
      rw [text] at same first
      rwa [Json.eq_text_of_canonical same]

section

variable (tidy : Tablet.Tidy tablets ranges) (boolean : ∀ r ∈ ranges, r.Boolean)
  (covered : ∀ r ∈ ranges, Tablet.Cover tablets r) {bins : List Bin}
  (hitems : (Binning.spread node tablets ranges).items = .ok bins)
include boolean hitems

/-- A holder of a range stands for a tablet that covers it. -/
theorem exists_coverer_of_mem_holders {holder : Extent × Address} (hr : range ∈ ranges)
    (h : holder ∈ ((owners bins).get? range).getD []) :
    ∃ t ∈ Tablet.coverers tablets range, Stands node holder t := by
  obtain ⟨a, ha, same, rfl⟩ := mem_holders_iff.mp h
  obtain ⟨ha, t, ht, stands⟩ := Binning.exists_coverer_of_mem_items hitems ha
  obtain rfl := (boolean _ ha).eq_of_beq (boolean _ hr) same
  exact ⟨t, ht, stands⟩

include covered in
/-- The ranges that have holders are those that were spread, since each of them is covered. -/
theorem mem_keys_iff {r : KeyRange} : r ∈ (owners bins).keys ↔ r ∈ ranges := by
  have held {r : KeyRange} : r ∈ bins.flatMap Bin.ranges ↔
      ∃ a ∈ bins.flatMap Bin.assignments, a.range = r := by
    simp [Bin.assignments]
  have binned {r : KeyRange} (hr : r ∈ bins.flatMap Bin.ranges) : r ∈ ranges := by
    obtain ⟨a, ha, rfl⟩ := held.mp hr
    exact (Binning.exists_coverer_of_mem_items hitems ha).1
  rw [mem_keys_owners_iff fun r hr => boolean r (binned hr)]
  refine ⟨binned, fun hr => ?_⟩
  -- some tablet has the cut where the range begins
  obtain ⟨found, hfound⟩ := covered r hr
  obtain ⟨t, ht, -⟩ := (Tablet.covering?_eq_some hfound).2.2 r.span.lo
    ⟨le_refl _, r.span.lo_lt_hi⟩
  have ht : t ∈ Tablet.coverers tablets r := by rwa [Tablet.coverers, hfound]
  obtain ⟨a, ha, range, -⟩ := Binning.exists_item_of_mem_coverers hitems hr ht
  exact held.mpr ⟨a, ha, range⟩

include tidy

/-- The split of a range is read at the hosts of the tablets that meet it. The holders were sorted
by their ends, which is the order of the tablets, and dropping repeated tablets first or repeated
hosts afterwards comes to the same. -/
theorem readsWhole_of_wholeBy (hr : range ∈ ranges) (cover : Tablet.Cover tablets range)
    (h : wholeBy lookup f (owners bins) range = .ok split) :
    ReadsWhole lookup node f tablets range split := by
  obtain ⟨sorted, hsorted, h⟩ := Result.bind_eq_ok.mp h
  obtain ⟨names, hnames, h⟩ := Result.bind_eq_ok.mp h
  cases h
  have sub := (Tablet.coverers_sublist tablets range).subset
  obtain ⟨ts, stands, mem, ends⟩ := exists_sorted_tablets tidy sub
    (fun x hx => exists_coverer_of_mem_holders boolean hitems hr hx)
    (fun t ht => by
      obtain ⟨a, ha, same, stands⟩ := Binning.exists_item_of_mem_coverers hitems hr ht
      exact ⟨_, mem_holders_iff.mpr ⟨a, ha, same ▸ BEq.rfl, rfl⟩, stands⟩) hsorted
  obtain ⟨hosts, rfl, named⟩ := exists_hosts
    (names_of_stands stands (Result.forall₂_of_mapM hnames))
  -- the tablets once each: which they are, their order, their hosts, and the hosts once each
  refine ⟨ts.eraseDups, ts.eraseDups.map hosts, ?_, ?_, ?_, ?_⟩
  · refine (List.perm_ext_iff_of_nodup (nodup_eraseDups ts)
      (tidy.apart.nodup.filter _)).mpr fun t => ?_
    rw [List.mem_eraseDups, mem, tidy.apart.mem_coverers_iff cover, List.mem_filter]
  · exact ordered_eraseDups tidy sub (fun t ht => (mem t).mp ht) ends
  · rw [List.forall₂_map_right_iff, List.forall₂_same]
    exact fun t ht => named t (List.mem_eraseDups.mp ht)
  · rw [distinct_eq_eraseDups, ← List.flatMap_def, ← List.flatMap_def,
      eraseDups_flatMap_eraseDups]

end

section

variable (tidy : Tablet.Tidy tablets ranges) (boolean : ∀ r ∈ ranges, r.Boolean)
include tidy boolean

/-- A split for each range that is held: the ranges are those that were spread, sorted and without
repetitions, and each has the hosts of the tablets that it meets. -/
theorem unclipped_of_wholesBy (covered : ∀ r ∈ ranges, Tablet.Cover tablets r)
    (h : wholesBy lookup f (.spread node tablets ranges) = .ok splits) :
    Unclipped lookup node f tablets ranges splits := by
  obtain ⟨bins, hbins, h⟩ := Result.bind_eq_ok.mp h
  obtain ⟨ascending, hsorted, h⟩ := Result.bind_eq_ok.mp h
  have hitems := items_of_keyedBins hbins
  have keys {r : KeyRange} := mem_keys_iff (r := r) boolean covered hitems
  obtain ⟨perm, lt⟩ := KeyRange.pairwise_lt_of_sort (fun r hr => boolean r (keys.mp hr))
    (nodup_keys_owners bins) hsorted
  have same (r : KeyRange) : r ∈ ascending ↔ r ∈ ranges := perm.mem_iff.trans keys
  refine ⟨ascending, lt, same, ?_⟩
  have each := (List.forall₂_and_left _ _).mpr
    ⟨fun r hr => (same r).mp hr, Result.forall₂_of_mapM h⟩
  exact each.imp fun r split both =>
    readsWhole_of_wholeBy tidy boolean hitems both.1 (covered r both.1) both.2

variable (named : ∀ r ∈ ranges, ∀ t ∈ Tablet.coverers tablets r,
  ∃ hosts, hostNames lookup (node t) = .ok hosts)
include named

omit boolean in
/-- The bins can be walked if the nodes have hosts: these are texts, and the extents are those of
tablets that can be compared. -/
theorem exists_items : ∃ bins, (Binning.spread node tablets ranges).items = .ok bins := by
  have texts : ∀ a ∈ ranges.flatMap (Tablet.assigned node tablets),
      ∃ address, a.location = .text address := by
    intro a ha
    obtain ⟨r, hr, t, ht, rfl⟩ := Tablet.mem_assigned.mp ha
    obtain ⟨hosts, hosted⟩ := named r hr t ht
    exact exists_text_of_hostNames hosted
  -- an extent that has a bin is that of a tablet
  have extents : ∀ a ∈ (Binning.spread node tablets ranges).assignments,
      ∃ t ∈ tablets, (t.extent == a.extent) = true := by
    intro a ha
    obtain ⟨a', ha', -, extent, -⟩ := Binning.exists_of_mem_assignments ha
    obtain ⟨r, -, t, ht, rfl⟩ := Tablet.mem_assigned.mp ha'
    exact ⟨t, (Tablet.coverers_sublist tablets r).subset ht, extent⟩
  refine (Binning.exists_items_iff_binsAt fun e he => Binning.exists_text_of_mem texts he).mpr
    fun e he => ?_
  refine Binning.exists_binsAt_of_comparable (Binning.wellFormed_ofAssignments _)
    (Binning.filled_ofAssignments _) (fun a ha a' ha' => ?_) he
  obtain ⟨t, ht, extent⟩ := extents a ha
  obtain ⟨t', ht', extent'⟩ := extents a' ha'
  exact tidy.comparable ht ht' extent extent'

/-- If the nodes of the covering tablets have hosts, the split of the range is made. Its holders can
be sorted, and the names are found. -/
theorem exists_wholeBy {bins : List Bin}
    (hitems : (Binning.spread node tablets ranges).items = .ok bins) (hr : range ∈ ranges) :
    ∃ split, wholeBy lookup f (owners bins) range = .ok split := by
  have sub := (Tablet.coverers_sublist tablets range).subset
  have known {x : Extent × Address} (hx : x ∈ ((owners bins).get? range).getD []) :
      ∃ t ∈ Tablet.coverers tablets range, Stands node x t :=
    exists_coverer_of_mem_holders boolean hitems hr hx
  -- holders stand for tablets, whose nodes have hosts
  obtain ⟨names, hnames⟩ := Result.exists_mapM
    (g := fun x : Extent × Address => hostNames lookup x.2) fun x hx => by
      obtain ⟨t, ht, node_eq, -⟩ := known (((Sorting.perm_sort
        (fun a b => !Extent.isBefore b.1 a.1) _).subset hx))
      obtain ⟨hosts, hosted⟩ := named range hr t ht
      obtain ⟨address, text⟩ := exists_text_of_hostNames hosted
      have same := Json.canonical_eq_of_beq node_eq
      rw [text] at same hosted
      exact ⟨hosts, Json.eq_text_of_canonical same.symm ▸ hosted⟩
  unfold wholeBy Extent.sortOn
  rw [Sorting.sort?_of_comparable fun x hx y hy =>
    Stands.comparable tidy sub (known hx) (known hy), Result.bind_ok, hnames]
  exact ⟨_, rfl⟩

/-- If the nodes of all covering tablets have hosts, there is a split for each range, so making them
does not fail. -/
theorem exists_wholesBy :
    ∃ splits, wholesBy lookup f (.spread node tablets ranges) = .ok splits := by
  obtain ⟨bins, hitems⟩ := exists_items tidy named
  have binned {r : KeyRange} (hr : r ∈ bins.flatMap Bin.ranges) : r ∈ ranges := by
    obtain ⟨bin, hbin, hr⟩ := List.mem_flatMap.mp hr
    exact (Binning.exists_coverer_of_mem_items hitems
      (List.mem_flatMap.mpr ⟨bin, hbin, List.mem_map_of_mem hr⟩)).1
  have requested {r : KeyRange} (hr : r ∈ ranges) : r.keys ⊆
      tablets.flatMap (fun t => t.extent.rows.keys) ++ ranges.flatMap KeyRange.keys :=
    List.subset_append_of_subset_right _ fun k hk => List.mem_flatMap.mpr ⟨r, hr, hk⟩
  have keyed : keyedBins (.spread node tablets ranges) = .ok bins := by
    have keys : (bins.flatMap Bin.ranges).all KeyRange.isKey = true :=
      List.all_eq_true.mpr fun r hr => (boolean r (binned hr)).isKey
        (tidy.legible.keys.subset (requested (binned hr)))
    unfold keyedBins
    rw [hitems, Result.bind_ok, if_pos keys]
    rfl
  -- the ranges are some that were requested, and those can be compared
  have comparable : ∀ r ∈ (owners bins).keys, ∀ q ∈ (owners bins).keys,
      r.comparable q = true := fun r hr q hq =>
    KeyRange.comparable_of_oneSort tidy.legible.keys
      (requested (binned (mem_of_mem_keys_owners hr)))
      (requested (binned (mem_of_mem_keys_owners hq)))
  have sorted : KeyRange.sort (owners bins).keys = .ok _ := Sorting.sort?_of_comparable comparable
  unfold wholesBy
  rw [keyed, Result.bind_ok]
  dsimp only
  rw [sorted, Result.bind_ok]
  refine Result.exists_mapM fun r hr => ?_
  have hr := (Sorting.perm_sort _ _).subset hr
  exact exists_wholeBy tidy boolean named hitems (binned (mem_of_mem_keys_owners hr))

end

/-- The splits of spread ranges are made just if they are one for each range, at the hosts of the
tablets that meet it. -/
theorem wholesBy_eq_ok_iff (tidy : Tablet.Tidy tablets ranges) (boolean : ∀ r ∈ ranges, r.Boolean)
    (covered : ∀ r ∈ ranges, Tablet.Cover tablets r) :
    wholesBy lookup f (.spread node tablets ranges) = .ok splits ↔
      Unclipped lookup node f tablets ranges splits := by
  refine ⟨unclipped_of_wholesBy tidy boolean covered, fun h => ?_⟩
  -- each tablet that covers a range holds a split, so its hosts have names
  have named : ∀ r ∈ ranges, ∀ t ∈ Tablet.coverers tablets r,
      ∃ hosts, hostNames lookup (node t) = .ok hosts := by
    intro r hr t ht
    obtain ⟨ascending, -, same, each⟩ := h
    obtain ⟨split, -, holders, names, perm, -, hosted, -⟩ :=
      Result.exists_of_forall₂_of_mem each.flip ((same r).mpr hr)
    have meets := List.mem_filter.mpr ((tidy.apart.mem_coverers_iff (covered r hr)).mp ht)
    obtain ⟨hosts, -, hosted⟩ :=
      Result.exists_of_forall₂_of_mem hosted.flip (perm.symm.subset meets)
    exact ⟨hosts, hosted⟩
  obtain ⟨splits', made⟩ := exists_wholesBy (f := f) tidy boolean named
  rw [made, h.unique (unclipped_of_wholesBy tidy boolean covered made)]

end Splitting

end ScanPlanner
