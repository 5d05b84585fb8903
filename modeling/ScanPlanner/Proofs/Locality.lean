import ScanPlanner.Proofs.History
import ScanPlanner.Proofs.Planning

/-!
# Where the splits of a table are read

With the catalog of a store, the plan of a table is known by the store as the last attempt to locate
its ranges found it: the pauses made for the table are those that its plan takes off the schedule
(`Planning.planTable_store`). If the tablets in that store do not overlap, no row is read twice, and
each range is read at the host of the one tablet that it lies in (`Planning.exists_owner_plan`). The
tablets of a registry that no tablet was put into never overlap.
-/

namespace ScanPlanner

variable {ω : Type}

/-! ## Verdicts that give a binning -/

namespace Store

variable {store : Store ω} {w : ω} {id : TableId} {ranges : List KeyRange} {binning : Binning}

/-- An online attempt that gives a binning has spread the ranges over the tablets that the store has
now, on the nodes that host them. -/
theorem online_eq_some {capacity : Int}
    (h : store.online capacity w id ranges = .ok (some binning)) :
    ∃ tablets, store.tabletsNow w id = .ok tablets ∧
      (∀ r ∈ ranges, Located.isLocated tablets r = true) ∧
      binning = .spread Tablet.host tablets ranges := by
  unfold online at h
  obtain ⟨located, hlocated, h⟩ := Result.bind_eq_ok.mp h
  obtain ⟨tablets, htablets, hlocated⟩ := Result.bind_eq_ok.mp hlocated
  refine ⟨tablets, tabletsNow_of_tabletsVia htablets, ?_⟩
  cases complete : located.isComplete with
  | true =>
    simp only [complete, if_true] at h
    cases h
    exact Located.spread_of_isComplete hlocated complete
  | false =>
    -- an incomplete answer gives no binning, whatever else is asked
    exfalso
    simp only [complete, Bool.false_eq_true, if_false] at h
    obtain ⟨there, -, h⟩ := Result.bind_eq_ok.mp h
    cases there with
    | false => cases h
    | true =>
      obtain ⟨state, -, h⟩ := Result.bind_eq_ok.mp h
      cases state <;> cases h

/-- An offline attempt that gives a binning has spread them over the same tablets, on the nodes that
hosted them last. -/
theorem offline_eq_some (h : store.offline w id ranges = .ok (some binning)) :
    ∃ tablets, store.tabletsNow w id = .ok tablets ∧
      (∀ r ∈ ranges, Offline.isReleased tablets r = true) ∧
      binning = .spread Offline.lastAddress tablets ranges := by
  unfold offline at h
  obtain ⟨state, -, h⟩ := Result.bind_eq_ok.mp h
  cases state with
  | online => cases h
  | offline =>
    obtain ⟨tablets, htablets, h⟩ := Result.bind_eq_ok.mp h
    refine ⟨tablets, tabletsNow_of_tablets htablets, ?_⟩
    -- with an obstacle there is no binning
    cases hb : Offline.ofTablets tablets ranges with
    | ok b =>
      simp only [hb] at h
      cases h
      exact Offline.ofTablets_eq_ok hb
    | error e =>
      simp only [hb] at h
      cases e <;> cases h

end Store

/-- An attempt on an online table that ends with a value has looked its id up, which an id with
parts does not allow. -/
theorem Locating.isScalar_of_attemptOnline {c : Collaborators (Cached ω)} {kind : BackendKind}
    {cat : Catalog ω} (hc : c.backend = .ofCatalog kind cat) {id : TableId}
    {ranges : List KeyRange} {s s' : Session (Cached ω)} {found : Option Binning}
    (h : outcome (attemptOnline c id ranges) s = (.ok found, s')) : id.isScalar = true := by
  obtain ⟨_, _, asked, -⟩ := outcome_bind_ok.mp h
  rw [Step.outcome_ask, hc] at asked
  obtain ⟨_, invalidated, -⟩ := Step.perform_ok asked
  cases hid : id.isScalar with
  | true => rfl
  | false =>
    simp only [Backend.ofCatalog, Locator.cached, hid, Bool.not_false, if_true] at invalidated
    obtain ⟨_, _, h, -⟩ := outcome_bind_ok.mp invalidated
    cases h

namespace Planning

/-- The node where a tablet is read: where it is hosted now or, for an offline table, where it was
hosted last. -/
def nodeOf (scan : TableScan) (t : Tablet) : Address :=
  if scan.offline then Offline.lastAddress t else t.host

/-- What is read by splits of tablets that do not overlap: no row twice, and each range in the one
tablet that it lies in, at the host of the tablet's node. -/
structure ReadsOnce (lookup : String → Result Json) (node : Tablet → Address)
    (tablets : List Tablet) (splits : List Split) : Prop where
  disjoint : (splits.flatMap Split.ranges).Pairwise KeyRange.Disjoint
  owner : ∀ split ∈ splits, ∀ r ∈ split.ranges, ∃ t ∈ tablets,
    t.extent.rows.span.Covers r.span ∧
      (∀ u ∈ tablets, u.extent.rows.span.Covers r.span → u = t) ∧
      hostNames lookup (node t) = .ok split.locations

section

variable {store : Store ω} {c : Collaborators (Cached ω)} {kind : BackendKind}
  {lookup : String → Result Json} {job : Job} {authorizations : List Json}

/-- Wherever ranges were located, it was on the tablets of the store as the pauses that were made
left it. -/
theorem locate_store (hc : c.backend = .ofCatalog kind store.catalog) {b : Backoff} {id : TableId}
    {ranges : List KeyRange} {scan : TableScan} {schedule : Schedule ω}
    {rest' : Schedule (Cached ω)} {s s' : Session (Cached ω)} {binning : Binning}
    (hw : s.world.known.WellFormed)
    (h : outcome (Locating.locate c b id ranges scan.offline (schedule.map Locator.behind)) s =
      (.ok (binning, rest'), s')) :
    ∃ made rest tablets, schedule = made ++ rest ∧ rest' = rest.map Locator.behind ∧
      s'.world.backing = Schedule.worldAfter s.world.backing made ∧ s'.world.known.WellFormed ∧
      store.tabletsNow (Schedule.worldAfter s.world.backing made) id = .ok tablets ∧
      (∀ r ∈ ranges, Tablet.Cover tablets r) ∧
      binning = .spread (nodeOf scan) tablets ranges := by
  unfold Locating.locate at h
  unfold nodeOf
  -- the two ways differ in the nodes that ranges are assigned to
  cases hoff : scan.offline with
  | true =>
    rw [hoff] at h
    obtain ⟨made, rest, e, e', decided, back, hw', -⟩ := Locating.retry_eq_ok
      (Locating.decides_attemptOffline hc id ranges s.world.known.capacity) hw rfl h
    obtain ⟨tablets, now, released, spread⟩ := Store.offline_eq_some decided
    have covered := fun r hr => Offline.cover_of_isReleased (released r hr)
    exact ⟨made, rest, tablets, e, e', back, hw', now, covered, spread⟩
  | false =>
    rw [hoff] at h
    obtain ⟨_, _, attempt⟩ := Locating.exists_attempt_of_retry h
    have scalar := Locating.isScalar_of_attemptOnline hc attempt
    obtain ⟨made, rest, e, e', decided, back, hw', -⟩ := Locating.retry_eq_ok
      (Locating.decides_attemptOnline hc scalar ranges s.world.known.capacity) hw rfl h
    obtain ⟨tablets, now, located, spread⟩ := Store.online_eq_some decided
    have covered := fun r hr => Located.cover_of_isLocated (located r hr)
    exact ⟨made, rest, tablets, e, e', back, hw', now, covered, spread⟩

/-- The plan of a table: its id, the pauses that were made, and the splits of its ranges, spread
over the tablets that cover them at the last attempt. -/
theorem planTable_located (hc : c.backend = .ofCatalog kind store.catalog) {size : Int}
    {table : TableName} {scan : TableScan} {schedule : Schedule ω} {rest' : Schedule (Cached ω)}
    {s s' : Session (Cached ω)} {ss : List Split} (hw : s.world.known.WellFormed)
    (h : outcome (planTable c job authorizations size table scan (schedule.map Locator.behind)) s =
      (.ok (ss, rest'), s')) :
    scan.check table = .ok () ∧ ∃ made rest id ranges tablets s₃, schedule = made ++ rest ∧
      rest' = rest.map Locator.behind ∧
      s₃.world.backing = Schedule.worldAfter s.world.backing made ∧ s₃.world.known.WellFormed ∧
      store.tableId s.world.backing table = .ok id ∧
      store.tabletsNow (Schedule.worldAfter s.world.backing made) id = .ok tablets ∧
      KeyRange.normalize scan.ranges scan.adjust = .ok ranges ∧
      (∀ r ∈ ranges, Tablet.Cover tablets r) ∧
      outcome (Splitting.make c ⟨table, id, Snapshot.ofScan scan authorizations⟩
        (.spread (nodeOf scan) tablets ranges) scan size) s₃ = (.ok ss, s') := by
  obtain ⟨checked, id, ranges, b, binning, s₁, s₂, s₃, asked, normalized, -, world₂, located,
    made⟩ := planTable_eq_ok h
  -- asking for the id leaves the store as it is
  obtain ⟨s₁', run, consulted⟩ := Store.outcome_ask_behind .tableId table
    (store.tableId · table) s
  rw [hc] at asked
  have same := asked.symm.trans run
  rw [Prod.mk.injEq] at same
  obtain ⟨known_id, rfl⟩ := same
  have back₂ : s₂.world.backing = s.world.backing := by rw [world₂, consulted.backing]
  have hw₂ : s₂.world.known.WellFormed := by
    rw [world₂]
    exact consulted.known hw
  obtain ⟨pauses, rest, tablets, e, e', back, hw', now, covered, rfl⟩ := locate_store hc hw₂ located
  rw [back₂] at back now
  exact ⟨checked, pauses, rest, id, ranges, tablets, s₃, e, e', back, hw', known_id.symm, now,
    normalized, covered, made⟩

/-- The splits of a table are made for the tablets that the store had at the last attempt. What was
made of the schedule by then tells which state that is; what happens later does not matter. -/
theorem planTable_store (hc : c.backend = .ofCatalog kind store.catalog)
    (names : ∀ host, c.canonical host = Effect.ofResult (lookup host)) {size : Int}
    {table : TableName} {scan : TableScan} {schedule : Schedule ω} {rest' : Schedule (Cached ω)}
    {s s' : Session (Cached ω)} {ss : List Split} (hw : s.world.known.WellFormed)
    (h : outcome (planTable c job authorizations size table scan (schedule.map Locator.behind)) s =
      (.ok (ss, rest'), s')) :
    ∃ made rest id tablets, schedule = made ++ rest ∧ rest' = rest.map Locator.behind ∧
      s'.world.backing = Schedule.worldAfter s.world.backing made ∧ s'.world.known.WellFormed ∧
      store.tableId s.world.backing table = .ok id ∧
      store.tabletsNow (Schedule.worldAfter s.world.backing made) id = .ok tablets ∧
      (scan.adjust = true → Tablet.Apart tablets → ReadsOnce lookup (nodeOf scan) tablets ss) := by
  obtain ⟨checked, pauses, rest, id, ranges, tablets, s₃, e, e', back, hw', known_id, now,
    normalized, -, made⟩ := planTable_located hc hw h
  have hosts_named := Splitting.ensures_hosts (w := s₃.world) names
  have kept : HostBook.Kept lookup s₃.world (Lru.empty size) s₃ :=
    ⟨HostBook.faithful_empty lookup size, rfl⟩
  refine ⟨pauses, rest, id, tablets, e, e', ?_⟩
  -- making the splits leaves the store as it is
  suffices s'.world = s₃.world ∧
      (scan.adjust = true → Tablet.Apart tablets → ReadsOnce lookup (nodeOf scan) tablets ss) by
    rw [this.1]
    exact ⟨back, hw', known_id, now, this.2⟩
  cases hadj : scan.adjust with
  | true =>
    obtain ⟨carry, _, s₄, ⟨-, world₄⟩, world'⟩ :=
      Splitting.make_eq_ok (Splitting.ensures_adjusted hosts_named hadj) kept made
    refine ⟨world'.trans world₄, fun _ apart => ⟨?_, fun split hs r hr => ?_⟩⟩
    · rw [hadj] at normalized
      exact Splitting.pairwise_disjoint_of_carryAll apart
        (KeyRange.pairwise_disjoint_normalize normalized) carry
    · exact Splitting.exists_owner_of_carryAll apart carry hs hr
  | false =>
    have single := TableScan.batch_eq_false_of_check checked hadj
    obtain ⟨-, _, s₄, ⟨-, world₄⟩, world'⟩ :=
      Splitting.make_eq_ok (Splitting.ensures_unadjusted hosts_named single hadj) kept made
    exact ⟨world'.trans world₄, nofun⟩

/-- In the plan of a job each table has its turn: the pauses made before it have changed the store,
and nothing else has. -/
theorem exists_turn (hc : c.backend = .ofCatalog kind store.catalog)
    (names : ∀ host, c.canonical host = Effect.ofResult (lookup host))
    (distinct : job.scans.Distinct) {schedule : Schedule ω} {s s' : Session (Cached ω)}
    (cache : s.world.known.WellFormed) {p : Plan}
    (h : outcome (plan c job authorizations (schedule.map Locator.behind)) s = (.ok p, s'))
    {table : TableName} {scan : TableScan} (configured : (table, scan) ∈ job.scans) :
    ∃ before rest left size s₁ s₂, schedule = before ++ rest ∧ 1 ≤ size ∧
      s₁.world.backing = Schedule.worldAfter s.world.backing before ∧
      s₁.world.known.WellFormed ∧
      outcome (planTable c job authorizations size table scan (rest.map Locator.behind)) s₁ =
        (.ok (p.splitsFor table, left), s₂) := by
  obtain ⟨level, value, size, s₁, notes, -, sized, planned, -⟩ := exists_of_plan h
  -- what holds before the turn of a table
  let Inv (left : Schedule (Cached ω)) (t : Session (Cached ω)) : Prop :=
    ∃ before rest, schedule = before ++ rest ∧ left = rest.map Locator.behind ∧
      t.world.backing = Schedule.worldAfter s.world.backing before ∧ t.world.known.WellFormed
  have keeps (e : TableName × TableScan) (left : Schedule (Cached ω)) (t : Session (Cached ω))
      (ss : List Split) (left' : Schedule (Cached ω)) (t' : Session (Cached ω))
      (hI : Inv left t)
      (run : outcome (planTable c job authorizations size e.1 e.2 left) t =
        (.ok (ss, left'), t')) : Inv left' t' := by
    obtain ⟨before, rest, hs, rfl, back, hw⟩ := hI
    obtain ⟨made, rest', _, _, e, e', back', hw', -⟩ := planTable_store hc names hw run
    refine ⟨before ++ made, rest', ?_, e', ?_, hw'⟩
    · rw [hs, e, List.append_assoc]
    · rw [back', back, Schedule.worldAfter_append]
  have start : Inv (schedule.map Locator.behind) { s with level := level.getD s.level } :=
    ⟨[], schedule, rfl, rfl, rfl, cache⟩
  obtain ⟨sss, flat, each⟩ := planTables_eq_ok Inv
    (fun e _ left t ss left' t' => keeps e left t ss left' t') start planned
  have own := each.imp fun e ss turn => And.intro turn (by
    obtain ⟨left, t, left', t', -, run⟩ := turn
    exact (exists_mem_planTable_iff hc run).1)
  obtain ⟨left, t, left', t', ⟨before, rest, hs, rfl, back, hw⟩, run⟩ :=
    exists_splitsFor distinct own configured
  rw [← flat] at run
  exact ⟨before, rest, left', size, t, t', hs, Settings.one_le_of_hostBookSize sized, back, hw, run⟩

/-- With adjusted ranges, the splits of a table read no row twice, and each range at the host of the
tablet that it lies in, if the tablets do not overlap: those that the store had, after all pauses
that the plan of the table made, at its last attempt to locate the ranges. In a registry they never
overlap, unless a tablet is put in. -/
theorem exists_owner_plan (hc : c.backend = .ofCatalog kind store.catalog)
    (names : ∀ host, c.canonical host = Effect.ofResult (lookup host))
    (distinct : job.scans.Distinct) {schedule : Schedule ω} {s s' : Session (Cached ω)}
    (cache : s.world.known.WellFormed) {p : Plan}
    (h : outcome (plan c job authorizations (schedule.map Locator.behind)) s = (.ok p, s'))
    {table : TableName} {scan : TableScan} (configured : (table, scan) ∈ job.scans)
    (adjust : scan.adjust = true) :
    (∀ changes : List Registry.Change, (∀ change ∈ changes, change.isPut = false) →
      ∀ id tablets,
        (Schedule.worldAfter .empty (changes.map Registry.carryOut)).tablets id = .ok tablets →
          Tablet.Apart tablets) ∧
    ∃ before made rest id tablets, schedule = before ++ made ++ rest ∧
      (∃ size s₁ s₂, s₁.world.backing = Schedule.worldAfter s.world.backing before ∧
        outcome (planTable c job authorizations size table scan
          ((made ++ rest).map Locator.behind)) s₁ =
            (.ok (p.splitsFor table, rest.map Locator.behind), s₂)) ∧
      store.tableId (Schedule.worldAfter s.world.backing before) table = .ok id ∧
      store.tabletsNow (Schedule.worldAfter s.world.backing (before ++ made)) id = .ok tablets ∧
      (Tablet.Apart tablets → ReadsOnce lookup (nodeOf scan) tablets (p.splitsFor table)) := by
  refine ⟨fun changes puts id tablets now => Registry.apart_of_history puts now, ?_⟩
  -- the turn of the table tells which pauses came before it
  obtain ⟨before, rest, left, size, t, t', hs, -, back, hw, run⟩ :=
    exists_turn hc names distinct cache h configured
  obtain ⟨made, rest', id, tablets, e, rfl, -, -, known_id, now, once⟩ :=
    planTable_store hc names hw run
  rw [back] at known_id now
  refine ⟨before, made, rest', id, tablets, ?_, ⟨size, t, t', back, ?_⟩, known_id, ?_, once adjust⟩
  · rw [hs, e, List.append_assoc]
  · rw [← e]
    exact run
  · rw [Schedule.worldAfter_append]
    exact now

/-- The two halves of a table have no key in common. -/
theorem apart_halves {lower lower' upper upper' : Option Address} :
    Tablet.Apart [⟨.lowerHalf, lower, lower'⟩, ⟨.upperHalf, upper, upper'⟩] :=
  List.pairwise_pair.mpr (Registry.disjoint_rows (Cut.le_refl (.after (.text "m"))))

/-- The two halves of a table are read at the hosts where they are after the pause, not where they
were before it. -/
theorem exists_owner_halves : ∃ p s', halvesRun = (.ok p, s') ∧
    ∃ tablets, Tablet.Apart tablets ∧
      ReadsOnce (fun host => .ok (.text host)) Tablet.host tablets (p.splitsFor (.text "t")) := by
  obtain ⟨p, s', planned⟩ := exists_halvesRun
  have distinct : halvesJob.scans.Distinct := List.pairwise_singleton _ _
  have names (host : String) : Registry.collaborators.canonical host =
      Effect.ofResult (.ok (.text host)) := rfl
  obtain ⟨-, before, made, rest, id, tablets, parts, -, known, now, once⟩ :=
    exists_owner_plan Registry.backend_collaborators names distinct
      (Registry.wellFormed_staleSession _) planned List.mem_cons_self rfl
  -- whether the pause belongs to the table or not, its tablets are the two halves
  have apart : Tablet.Apart tablets := by
    rcases List.append_eq_singleton_iff.mp parts.symm with ⟨none, -⟩ | ⟨one, -⟩
    · rw [none] at now
      obtain ⟨rfl, -⟩ := List.append_eq_nil_iff.mp none
      cases known
      cases now
      exact apart_halves
    · rw [one] at now
      rcases List.append_eq_singleton_iff.mp one with ⟨rfl, -⟩ | ⟨rfl, -⟩
      · cases known
        cases now
        exact apart_halves
      · cases known
        cases now
        exact apart_halves
  exact ⟨p, s', planned, tablets, apart, once apart⟩

end

end Planning

end ScanPlanner
