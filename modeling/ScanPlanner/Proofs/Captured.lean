import ScanPlanner.Proofs.ComparableBackends
import ScanPlanner.Scan.Reader

/-!
# What a reader takes from a split

A split that has been planned carries all that its reader needs. The reader may get it as a record,
and it may belong to a job that is configured in any other way: its settings are those that the
planning job had for the table, whatever that other job says (`Planning.captured_of_plan`). What was
recorded as empty stays empty, and nothing is taken from elsewhere in its place.
-/

namespace ScanPlanner

/-! ## Iterators by priority -/

namespace IteratorSetting

/-- The iterators that were given in ascending order of their priorities, those of one priority in
the order given. -/
structure Ordered (given ordered : List IteratorSetting) : Prop where
  perm : ordered.Perm given
  ascending : ordered.Pairwise fun i j => i.priority ≤ j.priority
  stable : ∀ n : Int, (ordered.filter fun i => i.priority = n) =
    given.filter fun i => i.priority = n

/-- An iterator is put in front of those of its priority that are there. So sorting by insertion
from the end keeps the iterators of one priority in the order in which they were given. -/
theorem filter_insert (n : Int) (i : IteratorSetting) (is : List IteratorSetting) :
    ((Sorting.insert (fun a b => decide (a.priority ≤ b.priority)) i is).filter
      fun i => i.priority = n) = (i :: is).filter fun i => i.priority = n := by
  induction is with
  | nil => rfl
  | cons j is ih =>
    unfold Sorting.insert
    by_cases le : i.priority ≤ j.priority
    · rw [if_pos (decide_eq_true le)]
    · -- the one that stays in front has another priority
      rw [if_neg (by simpa using le), List.filter_cons, ih]
      simp only [List.filter_cons, decide_eq_true_eq]
      split <;> split <;> first | rfl | omega

/-- Sorting puts iterators in the order of their priorities, and leaves those with the same priority
as they came. -/
theorem ordered_sort (given : List IteratorSetting) : Ordered given (sort given) where
  perm := Sorting.perm_sort _ given
  ascending := by
    have total : Std.Total fun i j : IteratorSetting => decide (i.priority ≤ j.priority) = true :=
      ⟨fun i j => by simpa using le_total i.priority j.priority⟩
    have trans : IsTrans IteratorSetting fun i j => decide (i.priority ≤ j.priority) = true :=
      ⟨fun i j k hij hjk => by simpa using le_trans (of_decide_eq_true hij) (of_decide_eq_true hjk)⟩
    unfold sort
    rw [Sorting.sort_eq_insertionSort]
    exact (List.pairwise_insertionSort _ given).imp of_decide_eq_true
  stable n := by
    unfold sort Sorting.sort
    induction given with
    | nil => rfl
    | cons i is ih => rw [List.foldr_cons, filter_insert, List.filter_cons, List.filter_cons, ih]

end IteratorSetting

/-! ## Readers -/

/-- The reader of a split has the settings of a scan: the split's own table and work, and the modes,
iterators, columns and authorizations with which it was planned. -/
structure ReaderSettings.Captured (r : ReaderSettings) (s : Split) (scan : TableScan)
    (authorizations : List Json) : Prop where
  tableName : r.tableName = s.tableName
  tableId : r.tableId = s.tableId
  ranges : r.ranges = s.ranges
  batch : r.batch = s.work.isBatch
  offline : r.offline = .bool scan.offline
  isolated : r.isolated = .bool scan.isolated
  localIterators : r.localIterators = .bool scan.localIterators
  iterators : IteratorSetting.Ordered scan.iterators r.iterators
  columns : r.columns = scan.columns
  authorizations : r.authorizations = authorizations
  /-- A batch is read in none of the three modes. -/
  modes : r.batch = true → r.offline = .bool false ∧ r.isolated = .bool false ∧
    r.localIterators = .bool false

/-- A scan in batches that passes the check is online, not isolated and without local iterators: the
check refuses the others, since a reader of batches has no such modes. -/
theorem TableScan.modes_of_check {scan : TableScan} {table : TableName}
    (h : scan.check table = .ok ()) (batch : scan.batch = true) :
    scan.offline = false ∧ scan.isolated = false ∧ scan.localIterators = false := by
  unfold check at h
  rw [batch] at h
  cases supported : scan.supportsBatch with
  | false =>
    rw [supported] at h
    cases h
  | true =>
    unfold supportsBatch at supported
    simpa [and_assoc] using supported

/-- A split that was planned has recorded all that its reader needs. The job that the reader gets
may be any other one, because nothing is taken from it that the record has. -/
theorem Split.Planned.captured {s : Split} {authorizations : List Json} {table : TableName}
    {scan : TableScan} (h : s.Planned authorizations table scan) (other : Job)
    (defaults : List Json) :
    (ReaderSettings.ofSplit s other defaults).Captured s scan authorizations := by
  -- that the modes go together was checked when the split was planned
  have modes := TableScan.modes_of_check h.checked
  unfold ReaderSettings.ofSplit
  rw [h.snapshot]
  exact {
    tableName := rfl
    tableId := rfl
    ranges := rfl
    batch := rfl
    offline := rfl
    isolated := rfl
    localIterators := rfl
    iterators := IteratorSetting.ordered_sort scan.iterators
    columns := rfl
    authorizations := rfl
    modes := fun batch => by
      obtain ⟨offline, isolated, localIterators⟩ := modes (h.shape.symm.trans batch)
      exact ⟨congrArg Json.bool offline, congrArg Json.bool isolated,
        congrArg Json.bool localIterators⟩ }

namespace Planning

/-- The settings of a reader depend on the split only. A split of a plan is read back from its
record, and whatever other job the reader belongs to and whatever authorizations that job has, the
reader has the settings that the planning job had for the split's table. The collaborators may be
any whose rows can be compared, with an invariant of their world that holds in the beginning and
that the pauses uphold; the backends over a registry and over a service are such. -/
theorem captured_of_plan {ω : Type} {c : Collaborators ω} {I : ω → Prop} (hc : c.Comparable I)
    {tables : Ledger TableName Json} (distinct : tables.Distinct) {settings : Settings} {job : Job}
    (made : Job.ofRecords tables settings = .ok job) {authorizations : List Json}
    {schedule : Schedule ω} (upheld : schedule.Upholds I) {s s' : Session ω} (start : I s.world)
    {p : Plan} (h : outcome (plan c job authorizations schedule) s = (.ok p, s')) {split : Split}
    (planned : split ∈ p.splits) :
    ∃ scan restored, job.scan? split.tableName = some scan ∧
      Split.ofJson split.toJson = .ok restored ∧
      ∀ (other : Job) (defaults : List Json),
        (ReaderSettings.ofSplit restored other defaults).Captured split scan authorizations := by
  have told (entry : TableName × TableScan) (he : entry ∈ job.scans) :=
    Job.told_of_ofRecords made he
  have value := (upholds_plan hc told upheld s start).2 p (congrArg Prod.fst h)
  obtain ⟨entry, he, made_for⟩ := value split planned
  refine ⟨entry.2, split, ?_, Split.ofJson_toJson made_for.ranges,
    fun other defaults => made_for.captured other defaults⟩
  -- the scan is found by the name of the table, because a job has each table once
  have keys := Job.distinct_of_ofRecords made distinct
  exact Ledger.get?_of_mem keys he (by rw [made_for.tableName]; exact BEq.rfl)

/-- A table that is read in batches, with two iterators of which the one that comes second in the
record comes first by its priority. -/
def batchRecord : Json := .object [
  ("ranges", .list [.object [("start", .text "c"), ("end", .text "x")]]),
  ("columns", .list [.object [("family", .text "meta")]]),
  ("iterators", .list [
    .object [("priority", .int 20), ("name", .text "vers"), ("iteratorClass", .text "Versions"),
      ("properties", .object [("maxVersions", .text "1")])],
    .object [("priority", .int 10), ("name", .text "grep"), ("iteratorClass", .text "Grep")]]),
  ("options", .object [(Setting.batch.key, .bool true)])]

/-- The scan that is read out of the record. -/
def batchScan : TableScan where
  ranges := [.acrossHalves]
  adjust := true
  batch := true
  offline := false
  isolated := false
  localIterators := false
  grouping := .extent
  columns := [⟨.text "meta", .null⟩]
  iterators := [⟨20, .text "vers", .text "Versions", [("maxVersions", .text "1")]⟩,
    ⟨10, .text "grep", .text "Grep", []⟩]

/-- The plan for the table, whose upper tablet finds a place in the first pause. -/
def batchRun : Result Plan × Session (Cached Registry) :=
  outcome (plan Registry.collaborators ⟨[(.text "t", batchScan)], []⟩ [.text "public"]
      ([Registry.moveUpperHalf (some (.text "b:1"))].map Locator.behind))
    (Registry.staleSession .halfHosted)

/-- The table is read in two batches, and the readers of both have the settings of the record, also
after the splits were written and read. -/
theorem captured_of_batchRun : ∃ p s', batchRun = (.ok p, s') ∧ p.splits.length = 2 ∧
    ∀ split ∈ p.splits, ∃ restored, Split.ofJson split.toJson = .ok restored ∧
      ∀ (other : Job) (defaults : List Json),
        (ReaderSettings.ofSplit restored other defaults).Captured split batchScan
          [.text "public"] := by
  have succeeds : batchRun.1.isOk = true := by decide +kernel
  obtain ⟨p, s', planned⟩ := exists_of_isOk_outcome succeeds
  have two : batchRun.1.map (fun p => p.splits.length) = .ok 2 := by decide +kernel
  rw [planned] at two
  refine ⟨p, s', planned, Except.ok.inj two, fun split hsplit => ?_⟩
  have distinct : Ledger.Distinct [((.text "t" : TableName), batchRecord)] :=
    List.pairwise_singleton _ _
  have read : Job.ofRecords [(.text "t", batchRecord)] [] = .ok ⟨[(.text "t", batchScan)], []⟩ :=
    rfl
  have hc : Registry.collaborators.Comparable (Cached.Comparable Registry.Comparable) :=
    Collaborators.comparable_ofCatalog rfl Registry.comparable_catalog fun _ => .pure trivial
  -- what happens in the pause moves a tablet, which leaves its rows as they are
  have upheld : Schedule.Upholds (Cached.Comparable Registry.Comparable)
      ([Registry.moveUpperHalf (some (.text "b:1"))].map Locator.behind) :=
    List.forall_mem_singleton.mpr (Locator.upholds_behind (Registry.upholds_carryOut nofun))
  have start : Cached.Comparable Registry.Comparable (Registry.staleSession .halfHosted).world :=
    ⟨by decide +kernel, by simp [Registry.staleSession, Session.start]⟩
  obtain ⟨scan, restored, found, back, captured⟩ :=
    captured_of_plan hc distinct read upheld start planned hsplit
  obtain ⟨_, -, hmem⟩ := Ledger.mem_of_get? found
  obtain ⟨-, rfl⟩ := Prod.mk.inj (List.mem_singleton.mp hmem)
  exact ⟨restored, back, captured⟩

end Planning

end ScanPlanner
