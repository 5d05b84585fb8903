import ScanPlanner.Proofs.Coverage
import ScanPlanner.Proofs.Fitting
import ScanPlanner.Proofs.SplitRecord
import ScanPlanner.Scan.Job

/-!
# Splits whose ranges can be written

A range can be read back from its record if it can be told which of its ends comes first
(`KeyRange.Told`). The ranges that a job is made of are such ranges (`Job.told_of_ofRecords`), and
so are those that they are merged to and, as long as the extents of the tablets are such, the parts
of them that lie in an extent. So the splits of a binning whose ranges and extents are such
(`Binning.Comparable`) have no others, and they all have the frame and the shape that the scan asks
for (`Splitting.ensures_frames`). -/

namespace ScanPlanner

/-! ## Lists and ledgers -/

/-- Nothing becomes a key but what is altered. The ranges that have owners are found this way. -/
theorem Ledger.mem_keys_of_foldl_alter {κ ν : Type} [BEq κ] {g : Option ν → ν} {ks : List κ}
    {entries : Ledger κ ν} {k : κ}
    (h : k ∈ (ks.foldl (fun entries k => Ledger.alter entries k g) entries).keys) :
    k ∈ entries.keys ∨ k ∈ ks := by
  -- induction on what is altered, for any entries before
  induction ks generalizing entries with
  | nil => exact .inl h
  | cons first ks ih =>
    rcases ih h with h | h
    · obtain ⟨entry, he, rfl⟩ := List.mem_map.mp h
      rcases mem_alter he with he | rfl | ⟨v, -, he, -⟩
      · exact .inl (List.mem_map_of_mem he)
      · exact .inr List.mem_cons_self
      · exact .inl (List.mem_map.mpr ⟨_, he, rfl⟩)
    · exact .inr (List.mem_cons_of_mem _ h)

/-! ## Ranges -/

namespace Span

/-- It can be told which end of the span comes first. Ends that are missing can be told from all
keys; two keys can be told only if they can be compared with each other. -/
def Told (s : Span) : Prop := RowKey.toldEnds s.lo.key? s.hi.key? = true

/-- A span whose ends are those of two others can be told if those can and their keys can be
compared with each other. Joining and meeting spans makes no other ends. -/
theorem told_of_ends {s t u : Span} (hs : s.Told) (ht : t.Told)
    (alike : ∀ x ∈ s.keys, ∀ y ∈ t.keys, x.alike y = true)
    (lo : u.lo = s.lo ∨ u.lo = t.lo) (hi : u.hi = s.hi ∨ u.hi = t.hi) : u.Told := by
  have mixed {k l : Option RowKey} (h : ∀ x ∈ k.toList, ∀ y ∈ l.toList, x.alike y = true) :
      RowKey.toldEnds k l = true := by
    cases k with
    | none => rfl
    | some k =>
      cases l with
      | none => rfl
      | some l => exact RowKey.told_of_alike (h k List.mem_cons_self l List.mem_cons_self)
  unfold Told at hs ht ⊢
  unfold keys at alike
  -- both ends come from one span, which is told, or one from each, and those are alike
  rcases lo with lo | lo <;> rcases hi with hi | hi <;> rw [lo, hi]
  · exact hs
  · exact mixed fun x hx y hy =>
      alike x (List.mem_append_left _ hx) y (List.mem_append_right _ hy)
  · refine mixed fun x hx y hy => ?_
    rw [RowKey.alike_comm]
    exact alike y (List.mem_append_right _ hy) x (List.mem_append_left _ hx)
  · exact ht

/-- A span without keys has all of them, and so has what it is joined with: no end is left that
could be compared. -/
theorem keys_join_of_keys_eq_nil {s : Span} (h : s.keys = []) (t : Span) :
    (s.join t).keys = [] := by
  obtain ⟨lo, hi, ordered⟩ := s
  cases lo <;> cases hi <;> cases h
  · exact absurd ordered id
  · have lo : ((⟨.bottom, .top, ordered⟩ : Span).join t).lo = .bottom :=
      min_eq_left (Cut.bottom_le _)
    have hi : ((⟨.bottom, .top, ordered⟩ : Span).join t).hi = .top := max_eq_left (Cut.le_top _)
    unfold keys
    rw [lo, hi]
    rfl
  · exact absurd ordered id
  · exact absurd ordered id

/-- Spans that are put together out of told ones with keys of one sort are told. The span grows
while it is put in, and its ends are always among those that are there. -/
theorem told_insert {s : Span} {ss : List Span} (hs : s.Told) (hss : ∀ t ∈ ss, t.Told)
    (alike : ∀ x ∈ s.keys, ∀ y ∈ KeyRange.spanKeys ss, x.alike y = true) :
    ∀ u ∈ s.insert ss, u.Told := by
  -- induction on the spans, for any span to be put in, since it grows
  induction ss generalizing s with
  | nil => exact List.forall_mem_singleton.mpr hs
  | cons t ts ih =>
    obtain ⟨ht, hts⟩ := List.forall_mem_cons.mp hss
    have first : ∀ x ∈ s.keys, ∀ y ∈ t.keys, x.alike y = true := fun x hx y hy =>
      alike x hx y (List.mem_append_left _ hy)
    have others : ∀ x ∈ s.keys, ∀ y ∈ KeyRange.spanKeys ts, x.alike y = true := fun x hx y hy =>
      alike x hx y (List.mem_append_right _ hy)
    unfold insert
    split
    · exact List.forall_mem_cons.mpr ⟨hs, hss⟩
    · split
      · exact List.forall_mem_cons.mpr ⟨ht, ih hs hts others⟩
      · refine ih ?_ hts fun x hx y hy => ?_
        · exact told_of_ends hs ht first (min_choice _ _) (max_choice _ _)
        · -- a key of the joined span is one of either, and all are alike by a key of the first
          cases keys : s.keys with
          | nil =>
            rw [keys_join_of_keys_eq_nil keys] at hx
            cases hx
          | cons k rest =>
            have hk : k ∈ s.keys := keys ▸ List.mem_cons_self
            rcases List.mem_append.mp (keys_join_subset s t hx) with hx | hx
            · exact others x hx y hy
            · have own := first k hk x hx
              rw [RowKey.alike_comm] at own
              exact RowKey.alike_trans own (others k hk y hy)

end Span

namespace KeyRange

/-- Of a range it can be told which end comes first just if it can be told of its span. -/
theorem told_iff_told_span {r : KeyRange} : r.Told ↔ r.span.Told := by
  show _ ↔ RowKey.toldEnds (Cut.ofLower r.lower).key? (Cut.ofUpper r.upper).key? = true
  rw [Cut.key?_ofLower, Cut.key?_ofUpper]
  exact Iff.rfl

/-- The common part of two ranges that can be told can be told, since clipping compares their
keys. -/
theorem told_clip {a b r : KeyRange} (ha : a.Told) (hb : b.Told) (h : a.clip b = .ok r) :
    r.Told := by
  obtain ⟨lo, hi⟩ := Span.meet?_eq_some_iff.mp (clip_eq_ok h)
  obtain ⟨_, clipped, -⟩ := Result.bind_eq_ok.mp h
  unfold clip? at clipped
  by_cases alike : alikeKeys a.keys b.keys = true
  · unfold alikeKeys at alike
    simp only [List.all_eq_true] at alike
    rw [told_iff_told_span] at ha hb ⊢
    refine Span.told_of_ends ha hb ?_ (lo ▸ max_choice _ _) (hi ▸ min_choice _ _)
    rwa [keys_span, keys_span]
  · rw [if_neg alike] at clipped
    cases clipped

/-- A union takes a range in only if its keys and those that are there are of one sort, so the ends
of all that it makes can be compared. -/
theorem told_foldlM_addTo {rs : List KeyRange} {ss ss' : List Span} (told : ∀ r ∈ rs, r.Told)
    (before : ∀ s ∈ ss, s.Told) (h : rs.foldlM addTo ss = .ok ss') : ∀ s ∈ ss', s.Told := by
  -- induction on the ranges, for any union to begin with
  induction rs generalizing ss with
  | nil =>
    cases h
    exact before
  | cons r rs ih =>
    obtain ⟨first, rest⟩ := List.forall_mem_cons.mp told
    rw [List.foldlM_cons] at h
    obtain ⟨mid, added, h⟩ := Result.bind_eq_ok.mp h
    refine ih rest ?_ h
    rw [addTo_eq_ok added]
    unfold addTo at added
    -- a range is added only if its keys can be compared with those of the union
    by_cases alike : alikeKeys (spanKeys ss) r.keys = true
    · unfold alikeKeys at alike
      simp only [List.all_eq_true] at alike
      refine Span.told_insert (told_iff_told_span.mp first) before fun x hx y hy => ?_
      rw [keys_span] at hx
      rw [RowKey.alike_comm]
      exact alike y hy x hx
    · rw [if_neg alike] at added
      cases added

/-- Ranges that are prepared for locating can be told, whether they are merged or stay as they
are. -/
theorem told_normalize {rs out : List KeyRange} {adjust : Bool} (told : ∀ r ∈ rs, r.Told)
    (h : normalize rs adjust = .ok out) : ∀ r ∈ out, r.Told := by
  obtain ⟨ns, hns, rfl⟩ := normalize_eq_ok h
  have each : ∀ r ∈ ns, r.Told := by
    cases adjust with
    | false =>
      cases hns
      exact told
    | true =>
      obtain ⟨ss, hss, hns⟩ := Result.bind_eq_ok.mp hns
      cases hns
      intro r hr
      obtain ⟨s, hs, rfl⟩ := List.mem_map.mp hr
      rw [told_iff_told_span, span_ofSpan]
      exact told_foldlM_addTo told (List.forall_mem_nil _) hss s hs
  -- the range of all rows stands in for no range, and it has no ends to compare
  cases ns with
  | nil => exact List.forall_mem_singleton.mpr (rfl : everything.Told)
  | cons n ns => exact each

end KeyRange

/-- A scan that was made from settings has the ranges that it was given. -/
theorem TableScan.ranges_of_ofSettings {given : Settings} {ranges : List KeyRange}
    {columns : List Column} {iterators : List IteratorSetting} {scan : TableScan}
    (h : ofSettings given ranges columns iterators = .ok scan) : scan.ranges = ranges := by
  obtain ⟨adjust, -, h⟩ := Result.bind_eq_ok.mp h
  obtain ⟨batch, -, h⟩ := Result.bind_eq_ok.mp h
  obtain ⟨offline, -, h⟩ := Result.bind_eq_ok.mp h
  obtain ⟨isolated, -, h⟩ := Result.bind_eq_ok.mp h
  obtain ⟨localIterators, -, h⟩ := Result.bind_eq_ok.mp h
  obtain ⟨grouping, -, h⟩ := Result.bind_eq_ok.mp h
  cases h
  rfl

/-- The ranges of a scan were read from their records, so they can be told: a record with ends that
have no order is refused. -/
theorem TableScan.told_of_ofJson {given : Settings} {v : Json} {scan : TableScan}
    (h : ofJson given v = .ok scan) : ∀ r ∈ scan.ranges, r.Told := by
  obtain ⟨options, -, h⟩ := Result.bind_eq_ok.mp h
  obtain ⟨own, -, h⟩ := Result.bind_eq_ok.mp h
  obtain ⟨records, -, h⟩ := Result.bind_eq_ok.mp h
  obtain ⟨ranges, read, h⟩ := Result.bind_eq_ok.mp h
  obtain ⟨columnRecords, -, h⟩ := Result.bind_eq_ok.mp h
  obtain ⟨columns, -, h⟩ := Result.bind_eq_ok.mp h
  obtain ⟨iteratorRecords, -, h⟩ := Result.bind_eq_ok.mp h
  obtain ⟨iterators, -, h⟩ := Result.bind_eq_ok.mp h
  rw [ranges_of_ofSettings h]
  intro r hr
  obtain ⟨_, -, made⟩ := Result.exists_of_mapM_of_mem read hr
  exact KeyRange.told_of_ofJson made

/-- The ranges of a job were read from their records, so they can be told. Planning upholds this
down to the splits, which can therefore be written and read. -/
theorem Job.told_of_ofRecords {tables : Ledger TableName Json} {settings : Settings} {job : Job}
    (h : ofRecords tables settings = .ok job) {entry : TableName × TableScan}
    (configured : entry ∈ job.scans) : ∀ r ∈ entry.2.ranges, r.Told := by
  obtain ⟨scans, read, h⟩ := Result.bind_eq_ok.mp h
  cases h
  obtain ⟨_, -, record⟩ := Result.exists_of_mapM_of_mem read configured
  obtain ⟨scan, made, e⟩ := Result.bind_eq_ok.mp record
  cases e
  exact TableScan.told_of_ofJson made

/-! ## Binnings -/

/-- It can be told which end of each extent comes first, and which end of each range assigned to it.
-/
def Binning.Comparable (b : Binning) : Prop :=
  ∀ a ∈ b.assignments, a.extent.rows.Told ∧ a.range.Told

/-- The ends of ranges that are spread over tablets can be told if those of the ranges and those of
the tablets can. -/
theorem Binning.comparable_spread {node : Tablet → Address} {tablets : List Tablet}
    {ranges : List KeyRange} (rows : ∀ t ∈ tablets, t.extent.rows.Told)
    (told : ∀ r ∈ ranges, r.Told) : (spread node tablets ranges).Comparable := by
  intro a ha
  obtain ⟨a', ha', -, extent, range⟩ := exists_of_mem_assignments ha
  obtain ⟨r, hr, ha'⟩ := List.mem_flatMap.mp ha'
  obtain ⟨t, ht, rfl⟩ := List.mem_map.mp ha'
  rw [← Extent.rows_eq_of_beq extent, ← range]
  exact ⟨rows t ((Tablet.coverers_sublist tablets r).subset ht), told r hr⟩

/-- The parts of the ranges of a bin can be told, since each is a range clipped to the extent of the
bin. -/
theorem Binning.Comparable.parts {b : Binning} (comparable : b.Comparable) {node : Address}
    {bins : List Bin} (h : b.binsAt node = .ok bins) {bin : Bin} (hb : bin ∈ bins)
    {ps : List KeyRange} (hp : Splitting.parts bin = .ok ps) : ∀ r ∈ ps, r.Told := by
  intro p hpart
  obtain ⟨r, hr, clipped⟩ := Result.exists_of_mapM_of_mem hp hpart
  obtain ⟨a, ha, extent, range⟩ := mem_assignments_of_binsAt h hb hr
  obtain ⟨rows, told⟩ := comparable a ha
  rw [extent] at rows
  rw [range] at told
  exact KeyRange.told_clip rows told clipped

/-! ## Splits -/

/-- The split has what the frame says; its work is a batch or not, as it is wanted, and can be
written. -/
structure SplitFrame.Frames (f : SplitFrame) (batch : Bool) (s : Split) : Prop where
  tableName : s.tableName = f.tableName
  tableId : s.tableId = f.tableId
  snapshot : s.snapshot = f.snapshot
  shape : s.work.isBatch = batch
  ranges : ∀ r ∈ s.ranges, r.Told

theorem SplitFrame.frames_split (f : SplitFrame) (locations : List Json) (work : Work)
    (told : ∀ r ∈ work.ranges, r.Told) :
    f.Frames work.isBatch (f.split locations work) :=
  ⟨rfl, rfl, rfl, rfl, told⟩

namespace Naming

variable {ω α β : Type} {I : HostBook → Session ω → Prop}

theorem ensures_true (x : Naming ω α) : Ensures (fun _ _ => True) x fun _ => True :=
  fun _ _ _ _ _ _ _ => ⟨trivial, trivial⟩

/-- If each of some items gives what is wanted, the list of their results has nothing else. -/
theorem ensures_forall_mapM {f : α → Naming ω β} {Q : β → Prop} {xs : List α}
    (h : ∀ x ∈ xs, Ensures I (f x) Q) : Ensures I (xs.mapM f) fun ys => ∀ y ∈ ys, Q y := by
  refine (ensures_mapM (Q := fun _ => Q) h).imp fun ys each y hy => ?_
  obtain ⟨_, -, hQ⟩ := Result.exists_of_forall₂_of_mem each hy
  exact hQ

end Naming

namespace Splitting

/-- A range that has owners was assigned to some bin, because the owners are collected by going
through the bins and their ranges. -/
theorem mem_of_mem_keys_owners {bins : List Bin} {r : KeyRange} (h : r ∈ (owners bins).keys) :
    r ∈ bins.flatMap Bin.ranges := by
  unfold owners at h
  -- induction on the bins, for any owners before
  suffices ∀ es : Ledger KeyRange (List (Extent × Address)),
      r ∈ (bins.foldl (fun owners bin => bin.ranges.foldl (fun owners range =>
        owners.alter range fun present => present.getD [] ++ [(bin.extent, bin.location)])
          owners) es).keys → r ∈ es.keys ∨ r ∈ bins.flatMap Bin.ranges by
    rcases this [] h with h | h
    · cases h
    · exact h
  clear h
  induction bins with
  | nil => exact fun es h => .inl h
  | cons bin bins ih =>
    intro es h
    rw [List.flatMap_cons, List.mem_append]
    rcases ih _ h with h | h
    · exact (Ledger.mem_keys_of_foldl_alter h).imp_right .inl
    · exact .inr (.inr h)

section

variable {ω : Type} (c : Collaborators ω) (f : SplitFrame) {b : Binning}
  (comparable : b.Comparable)
include comparable

/-- Batches by extent: one split for each bin, with the parts of its ranges. The parts can be told
because range and extent can be compared. -/
theorem frames_extentBatches :
    Naming.Ensures (fun _ _ => True) (extentBatches c f b) fun ss => ∀ s ∈ ss, f.Frames true s := by
  refine Naming.ensures_bind (Naming.ensures_ofResult b.locations) fun nodes _ => ?_
  refine Naming.ensures_bind
    (Naming.ensures_forall_mapM (Q := fun ss => ∀ s ∈ ss, f.Frames true s) fun node _ => ?_)
    fun sss each => Naming.ensures_pure (List.forall_mem_flatten.mpr each)
  refine Naming.ensures_bind (Naming.ensures_ofResult (b.binsAt node)) fun bins hbins => ?_
  refine Naming.ensures_forall_mapM fun bin hb => ?_
  refine Naming.ensures_bind (Naming.ensures_ofResult (parts bin)) fun ps hps => ?_
  refine Naming.ensures_bind (Naming.ensures_true _) fun names _ => ?_
  exact Naming.ensures_pure (f.frames_split names (.batch ps) (comparable.parts hbins hb hps))

/-- Batches by node: one split for each node, with the parts of all ranges of its bins. The bins may
be of several extents, and each part is made for its own. -/
theorem frames_nodeBatches :
    Naming.Ensures (fun _ _ => True) (nodeBatches c f b) fun ss => ∀ s ∈ ss, f.Frames true s := by
  refine Naming.ensures_bind (Naming.ensures_ofResult b.locations) fun nodes _ => ?_
  refine Naming.ensures_forall_mapM fun node _ => ?_
  refine Naming.ensures_bind (Naming.ensures_ofResult _) fun pss hpss => ?_
  refine Naming.ensures_bind (Naming.ensures_true _) fun names _ => ?_
  refine Naming.ensures_pure (f.frames_split names (.batch pss.flatten) fun r hr => ?_)
  obtain ⟨bins, hbins, hpss⟩ := Result.bind_eq_ok.mp hpss
  obtain ⟨ps, hps, hr⟩ := List.mem_flatten.mp hr
  obtain ⟨bin, hb, hps⟩ := Result.exists_of_mapM_of_mem hpss hps
  exact comparable.parts hbins hb hps r hr

/-- Splits of single ranges: one for each part of a range of a bin, with that part as its only
range. -/
theorem frames_singles :
    Naming.Ensures (fun _ _ => True) (singles c f b) fun ss => ∀ s ∈ ss, f.Frames false s := by
  refine Naming.ensures_bind (Naming.ensures_ofResult b.locations) fun nodes _ => ?_
  refine Naming.ensures_bind
    (Naming.ensures_forall_mapM (Q := fun sss => ∀ ss ∈ sss, ∀ s ∈ ss, f.Frames false s)
      fun node _ => ?_)
    fun ssss each => Naming.ensures_pure
      (List.forall_mem_flatten.mpr (List.forall_mem_flatten.mpr each))
  refine Naming.ensures_bind (Naming.ensures_ofResult (b.binsAt node)) fun bins hbins => ?_
  refine Naming.ensures_forall_mapM fun bin hb => ?_
  refine Naming.ensures_bind (Naming.ensures_true _) fun names _ => ?_
  refine Naming.ensures_bind (Naming.ensures_ofResult (parts bin)) fun ps hps => ?_
  refine Naming.ensures_pure fun s hs => ?_
  obtain ⟨part, hpart, rfl⟩ := List.mem_map.mp hs
  have told := comparable.parts hbins hb hps part hpart
  exact f.frames_split names (.single part) (List.forall_mem_singleton.mpr told)

/-- Ranges that stay whole: each of them was assigned as it is, so it can be told without being
clipped. -/
theorem frames_wholes :
    Naming.Ensures (fun _ _ => True) (wholes c f b) fun ss => ∀ s ∈ ss, f.Frames false s := by
  refine Naming.ensures_bind (Naming.ensures_ofResult (keyedBins b)) fun bins keyed => ?_
  refine Naming.ensures_bind (Naming.ensures_ofResult _) fun sorted hsorted => ?_
  refine Naming.ensures_forall_mapM fun range hr => ?_
  refine Naming.ensures_bind (Naming.ensures_ofResult _) fun holders _ => ?_
  refine Naming.ensures_bind (Naming.ensures_true _) fun names _ => ?_
  refine Naming.ensures_pure (f.frames_split _ (.single range) (List.forall_mem_singleton.mpr ?_))
  -- the range is one of some bin
  have owned := mem_of_mem_keys_owners ((Sorting.perm_of_sort? hsorted).subset hr)
  obtain ⟨bin, hb, hr⟩ := List.mem_flatMap.mp owned
  obtain ⟨node, here, hhere, hb⟩ := Binning.exists_binsAt_of_items (items_of_keyedBins keyed) hb
  obtain ⟨a, ha, -, rfl⟩ := Binning.mem_assignments_of_binsAt hhere hb hr
  exact (comparable a ha).2

/-- All splits of a scan have the frame and the shape that the scan asks for. Which of the four ways
of building them is taken does not matter any more after this. -/
theorem ensures_frames (scan : TableScan) :
    Naming.Ensures (fun _ _ => True) (splits c f b scan) fun ss =>
      ∀ s ∈ ss, f.Frames scan.batch s := by
  unfold splits
  cases scan.batch with
  | true =>
    cases scan.grouping with
    | node => exact frames_nodeBatches c f comparable
    | extent => exact frames_extentBatches c f comparable
  | false =>
    cases scan.adjust with
    | true => exact frames_singles c f comparable
    | false => exact frames_wholes c f comparable

end

end Splitting

end ScanPlanner
