import Mathlib.Data.List.Pairwise
import ScanPlanner.Proofs.OneSort
import ScanPlanner.Tablet.Covering

/-!
# What covering tablets cover

Tablets that cover a range overlap it, and together they hold each of its keys
(`Tablet.Cover.exists_mem`), whether they are a chain or overlap, and wherever the search for them
ended. If the keys are of one sort, the search has a result (`Tablet.Legible.exists_covering?`).

The ends of extents lie behind keys or beyond all keys, so two extents that have anything in common
have a key in common (`Extent.meet?_rows_eq_none`).
-/

namespace ScanPlanner

/-! ## The rows of extents -/

namespace Extent

@[simp] theorem lo_span_rows (e : Extent) : e.rows.span.lo = Cut.behind e.prev := by
  show Cut.ofLower (e.prev.map (⟨·, .bool false⟩)) = _
  cases e.prev <;> rfl

@[simp] theorem hi_span_rows (e : Extent) : e.rows.span.hi = Cut.upTo e.last := by
  show Cut.ofUpper (e.last.map (⟨·, .bool true⟩)) = _
  cases e.last <;> rfl

theorem keys_rows (e : Extent) : e.rows.keys = e.prev.toList ++ e.last.toList := by
  show ((e.prev.map fun k => (⟨k, .bool false⟩ : Edge)).map Edge.key).toList ++
    ((e.last.map fun k => (⟨k, .bool true⟩ : Edge)).map Edge.key).toList = _
  cases e.prev <;> cases e.last <;> rfl

theorem last_subset_keys (e : Extent) : e.last.toList ⊆ e.rows.keys := by
  rw [keys_rows]
  exact List.subset_append_right _ _

/-- Extents of one table can be compared if the rows that they end at can. -/
theorem comparable_of_alike {a b : Extent} (same : (a.tableId == b.tableId) = true)
    (alike : alikeKeys a.last.toList b.last.toList = true) : a.comparable b = true := by
  unfold comparable
  rw [if_pos same, alike, Bool.or_true]

/-- Equal extents have the same rows. -/
theorem rows_eq_of_beq {a b : Extent} (h : (a == b) = true) : a.rows = b.rows := by
  have same : a.identity = b.identity := of_decide_eq_true h
  obtain ⟨_, pa, la, _⟩ := a
  obtain ⟨_, pb, lb, _⟩ := b
  simp only [identity, Prod.mk.injEq] at same
  obtain ⟨-, rfl, rfl⟩ := same
  rfl

/-- Two extents of which no key lies in both have nothing in common at all: each end of an extent is
missing or behind a key, so a common part begins at a cut that a key lies behind. -/
theorem meet?_rows_eq_none {a b : Extent} (h : ∀ k, ¬ (k ∈ a.rows ∧ k ∈ b.rows)) :
    a.rows.span.meet? b.rows.span = none := by
  cases hm : a.rows.span.meet? b.rows.span with
  | none => rfl
  | some u =>
    exfalso
    obtain ⟨-, hhi⟩ := Span.meet?_eq_some_iff.mp hm
    have lt := u.lo_lt_hi
    suffices ∃ k, u.Holds k by
      obtain ⟨k, hk⟩ := this
      exact h k ((Span.holds_meet? hm).mp hk)
    -- a common part ends where one of the two extents does
    have ends : (∃ k, u.hi = .after k) ∨ u.hi = .top := by
      rw [hhi, hi_span_rows, hi_span_rows]
      rcases min_choice (Cut.upTo a.last) (Cut.upTo b.last) with e | e <;> rw [e]
      · cases a.last with
        | none => exact .inr rfl
        | some k => exact .inl ⟨k, rfl⟩
      · cases b.last with
        | none => exact .inr rfl
        | some k => exact .inl ⟨k, rfl⟩
    rcases ends with ⟨k, hk⟩ | top
    · -- the last key of the common part
      refine ⟨k, ?_, hk ▸ le_refl _⟩
      rcases u.lo.le_before_or_after_le k with lo | lo
      · exact lo
      · exact absurd (hk ▸ lt) (not_lt.mpr lo)
    · -- a key behind the one that the common part begins at
      have above : ∃ k, u.lo ≤ .before k := by
        cases hlo : u.lo with
        | bottom => exact ⟨.text "", Cut.bottom_le _⟩
        | before k => exact ⟨k, le_refl _⟩
        | after k =>
          obtain ⟨l, hl⟩ := RowKey.exists_gt k
          exact ⟨l, Cut.after_le_before.mpr hl⟩
        | top =>
          rw [hlo, top] at lt
          exact absurd lt (lt_irrefl _)
      obtain ⟨k, hk⟩ := above
      exact ⟨k, hk, top ▸ Cut.le_top _⟩

end Extent

namespace Tablet

/-! ## The search -/

/-- What the search adds: tablets of the list, in order, that overlap the range, and their rows.
Which of the overlapping ones it finds is not said here, because it may stop before the end of the
list. -/
theorem collect_eq_ok {range : KeyRange} {ts found found' : List Tablet}
    {covered covered' : List Span}
    (h : collect range ts found covered = .ok (found', covered')) :
    ∃ more, found' = found ++ more ∧ more.Sublist ts ∧
      (∀ t ∈ more, t.extent.rows.span.meet? range.span ≠ none) ∧
      covered' = Span.insertAll covered (more.map (·.extent.rows.span)) := by
  -- induction on the list, for whatever was found before
  induction ts generalizing found covered with
  | nil =>
    cases h
    exact ⟨[], by simp [Span.insertAll]⟩
  | cons t ts ih =>
    unfold collect at h
    obtain ⟨overlaps, hoverlaps, h⟩ := Result.bind_eq_ok.mp h
    have meets := KeyRange.overlaps?_eq_ok hoverlaps
    cases overlaps with
    | true =>
      simp only [if_true] at h
      obtain ⟨mid, hmid, h⟩ := Result.bind_eq_ok.mp h
      obtain ⟨more, rfl, sub, each, union⟩ := ih h
      -- the tablet overlaps the range, so it is found, and the union grows by its rows
      refine ⟨t :: more, by simp, sub.cons_cons t, ?_, ?_⟩
      · intro u hu
        rcases List.mem_cons.mp hu with rfl | hu
        · exact Option.isSome_iff_ne_none.mp meets.symm
        · exact each u hu
      · rw [union, KeyRange.addTo_eq_ok hmid]
        rfl
    | false =>
      simp only [Bool.false_eq_true, if_false] at h
      -- before the first tablet is found the search goes on, after that it ends here
      cases hfound : found.isEmpty with
      | true =>
        rw [hfound] at h
        obtain ⟨more, hmore, sub, rest⟩ := ih h
        exact ⟨more, hmore, sub.cons t, rest⟩
      | false =>
        rw [hfound] at h
        cases h
        exact ⟨[], by simp [Span.insertAll]⟩

/-- The tablets that cover a range overlap it, and together they have each of its cuts. That is what
the united rows are compared with the range for. -/
theorem covering?_eq_some {tablets found : List Tablet} {range : KeyRange}
    (h : covering? tablets range = .ok (some found)) :
    found.Sublist tablets ∧ (∀ t ∈ found, t.extent.rows.span.meet? range.span ≠ none) ∧
      ∀ c, range.span.Has c → ∃ t ∈ found, t.extent.rows.span.Has c := by
  unfold covering? at h
  obtain ⟨⟨more, covered⟩, hcollect, h⟩ := Result.bind_eq_ok.mp h
  obtain ⟨_, rfl, sub, each, union⟩ := collect_eq_ok hcollect
  dsimp only at h
  cases hfound : more.isEmpty with
  | true =>
    rw [hfound] at h
    cases h
  | false =>
    rw [hfound] at h
    cases hkeys : alikeKeys (KeyRange.spanKeys covered) range.keys with
    | false =>
      rw [hkeys] at h
      cases h
    | true =>
      rw [hkeys] at h
      cases hcovers : Span.someCovers covered range.span with
      | false =>
        rw [hcovers] at h
        cases h
      | true =>
        rw [hcovers] at h
        cases h
        -- a span of the union covers the range, so one of the tablets in it has the cut
        refine ⟨sub, each, fun c hc => ?_⟩
        rw [union, Span.someCovers_insertAll] at hcovers
        simpa [Span.AnyHas] using hcovers c hc

/-- If the keys are of one sort, the search comes to a result, whatever has been found before, and
it brings in no key that was not there. -/
theorem exists_collect {ks : List RowKey} (h : OneSort ks) {range : KeyRange} (hr : range.keys ⊆ ks)
    {ts : List Tablet} (ht : ∀ t ∈ ts, t.extent.rows.keys ⊆ ks) (found : List Tablet)
    (covered : List Span) (hc : KeyRange.spanKeys covered ⊆ ks) :
    ∃ out, collect range ts found covered = .ok out ∧ KeyRange.spanKeys out.2 ⊆ ks := by
  -- induction on the list, for whatever was found before
  induction ts generalizing found covered with
  | nil => exact ⟨(found, covered), rfl, hc⟩
  | cons t ts ih =>
    have rows : t.extent.rows.keys ⊆ ks := ht t (by simp)
    have rest : ∀ u ∈ ts, u.extent.rows.keys ⊆ ks := fun u hu => ht u (by simp [hu])
    unfold collect
    rw [KeyRange.overlaps?_of_oneSort h rows hr, Result.bind_ok]
    cases (t.extent.rows.span.meet? range.span).isSome with
    | true =>
      simp only [if_true, KeyRange.addTo_of_oneSort h hc rows, Result.bind_ok]
      refine ih rest _ _ ?_
      refine List.Subset.trans (Span.keys_insert_subset _ _) ?_
      rw [KeyRange.keys_span]
      exact List.append_subset.mpr ⟨rows, hc⟩
    | false =>
      cases hfound : found.isEmpty with
      | true => simpa [hfound] using ih rest found covered hc
      | false => exact ⟨(found, covered), by simp, hc⟩

/-- With keys of one sort it is told whether a range is covered: none of the comparisons that the
search makes can fail. -/
theorem exists_covering? {ks : List RowKey} (h : OneSort ks) {range : KeyRange}
    (hr : range.keys ⊆ ks) {tablets : List Tablet}
    (ht : ∀ t ∈ tablets, t.extent.rows.keys ⊆ ks) :
    ∃ found, covering? tablets range = .ok found := by
  obtain ⟨⟨found, covered⟩, hcollect, hkeys⟩ :=
    exists_collect h hr ht [] [] (List.nil_subset _)
  unfold covering?
  rw [hcollect, Result.bind_ok]
  cases hfound : found.isEmpty with
  | true => exact ⟨none, by simp [hfound]⟩
  | false =>
    have alike : alikeKeys (KeyRange.spanKeys covered) range.keys = true := h.alikeKeys hkeys hr
    exact ⟨_, by simp only [hfound, alike]; rfl⟩

/-- The tablets that cover a range, none if nothing covers it. -/
def coverers (tablets : List Tablet) (range : KeyRange) : List Tablet :=
  match covering? tablets range with
  | .ok (some found) => found
  | _ => []

/-- The tablets cover the range: looking for the covering tablets ends with a list of them. A range
that cannot be compared with the tablets is not covered by them. -/
def Cover (tablets : List Tablet) (range : KeyRange) : Prop :=
  ∃ found, covering? tablets range = .ok (some found)

/-- Each key of a range that is covered lies in one of the tablets that cover it. -/
theorem Cover.exists_mem {tablets : List Tablet} {range : KeyRange} (h : Cover tablets range)
    {k : RowKey} (hk : k ∈ range) : ∃ t ∈ coverers tablets range, k ∈ t.extent.rows := by
  obtain ⟨found, hfound⟩ := h
  obtain ⟨t, ht, has⟩ := (covering?_eq_some hfound).2.2 _ (Span.holds_iff_has.mp hk)
  rw [coverers, hfound]
  exact ⟨t, ht, Span.holds_iff_has.mpr has⟩

/-- The tablets that cover a range are tablets of the list, in its order. -/
theorem coverers_sublist (tablets : List Tablet) (range : KeyRange) :
    (coverers tablets range).Sublist tablets := by
  unfold coverers
  split
  · next found hfound => exact (covering?_eq_some hfound).1
  · exact List.nil_sublist _

/-- The extents of the tablets have no row in common. The tablets of a table are meant to be so; a
tablet that is put into a table may overlap those that are there. -/
def Apart (tablets : List Tablet) : Prop :=
  tablets.Pairwise fun t u => KeyRange.Disjoint t.extent.rows u.extent.rows

/-- Two different tablets of the list are disjoint, whichever comes first. -/
theorem Apart.disjoint {tablets : List Tablet} (h : Apart tablets) {t u : Tablet}
    (ht : t ∈ tablets) (hu : u ∈ tablets) (different : t ≠ u) :
    KeyRange.Disjoint t.extent.rows u.extent.rows := by
  have symm : Std.Symm fun t u : Tablet => KeyRange.Disjoint t.extent.rows u.extent.rows :=
    ⟨fun _ _ h => h.symm⟩
  exact List.Pairwise.forall h ht hu different

/-- Of tablets that do not overlap, only one has all of a range. -/
theorem Apart.eq_of_covers {tablets : List Tablet} (h : Apart tablets) {t u : Tablet}
    (ht : t ∈ tablets) (hu : u ∈ tablets) {s : Span} (hts : t.extent.rows.span.Covers s)
    (hus : u.extent.rows.span.Covers s) : u = t := by
  by_contra different
  exact Span.meet?_ne_none_of_covers hus hts
    (Extent.meet?_rows_eq_none (h.disjoint hu ht different))

theorem keys_subset {tablets : List Tablet} {t : Tablet} (ht : t ∈ tablets) (more : List RowKey) :
    t.extent.rows.keys ⊆ tablets.flatMap (fun t => t.extent.rows.keys) ++ more :=
  fun _ hk => List.mem_append_left _ (List.mem_flatMap.mpr ⟨t, ht, hk⟩)

/-- Tablets as the metadata of a cluster has them: ids and addresses can be looked up, and the keys
of the tablets and of the ranges can be compared. -/
structure Legible (tablets : List Tablet) (ranges : List KeyRange) : Prop where
  keys : OneSort (tablets.flatMap (fun t => t.extent.rows.keys) ++ ranges.flatMap KeyRange.keys)
  ids : ∀ t ∈ tablets, t.extent.isKey = true
  addresses : ∀ t ∈ tablets, ∀ a, t.location = some a ∨ t.lastLocation = some a → a.isScalar = true

instance (tablets : List Tablet) (ranges : List KeyRange) : Decidable (Legible tablets ranges) :=
  decidable_of_iff
    (OneSort (tablets.flatMap (fun t => t.extent.rows.keys) ++ ranges.flatMap KeyRange.keys) ∧
      (∀ t ∈ tablets, t.extent.isKey = true) ∧
      ∀ t ∈ tablets, ∀ a ∈ t.location.toList ++ t.lastLocation.toList, a.isScalar = true)
    ⟨fun h => ⟨h.1, h.2.1, fun t ht a ha => h.2.2 t ht a (by simpa using ha)⟩,
      fun h => ⟨h.keys, h.ids, fun t ht a ha => h.addresses t ht a (by simpa using ha)⟩⟩

/-- In metadata that is legible it is told for each of the ranges whether it is covered. -/
theorem Legible.exists_covering? {tablets : List Tablet} {ranges : List KeyRange}
    (h : Legible tablets ranges) {range : KeyRange} (hr : range ∈ ranges) :
    ∃ found, covering? tablets range = .ok found := by
  refine Tablet.exists_covering? h.keys ?_ fun t ht => keys_subset ht _
  intro k hk
  exact List.mem_append.mpr (.inr (List.mem_flatMap.mpr ⟨range, hr, hk⟩))

end Tablet

end ScanPlanner
