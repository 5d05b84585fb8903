import ScanPlanner.Planning.Basic
import ScanPlanner.Proofs.Coverage
import ScanPlanner.Proofs.Retry

/-!
# Plans

A plan is taken apart into the plans of its tables (`Planning.plan_eq_ok`), and the plan of a table
into its ranges, where they are located and the splits made of that
(`Planning.planTable_eq_ok`).

* `Planning.exists_mem_plan_iff`: planning neither loses nor adds a row.
-/

namespace ScanPlanner

variable {ω : Type}

/-- The level of logging is set while the step runs and is what it was before, also if the step
fails. -/
@[simp] theorem Step.outcome_atLevel {α : Type} (level : Option Int) (step : Step ω α)
    (s : Session ω) :
    outcome (atLevel level step) s =
      ((outcome step { s with level := level.getD s.level }).1,
        { (outcome step { s with level := level.getD s.level }).2 with level := s.level }) := rfl

/-! ## Making splits -/

namespace Splitting

variable {c : Collaborators ω} {f : SplitFrame} {b : Binning} {scan : TableScan} {size : Int}
  {s s' : Session ω} {ss : List Split} {I : HostBook → Session ω → Prop} {Q : List Split → Prop}

/-- What the naming of hosts ensures about splits, beginning with an empty host book, is true of the
splits that are made. -/
theorem make_eq_ok (hQ : Naming.Ensures I (splits c f b scan) Q) (hI : I (Lru.empty size) s)
    (h : outcome (make c f b scan size) s = (.ok ss, s')) :
    Q ss ∧ ∃ book s₁, I book s₁ ∧ s'.world = s₁.world := by
  unfold make at h
  obtain ⟨⟨ss', book⟩, s₁, run, h⟩ := outcome_bind_ok.mp h
  obtain ⟨hQ', hI'⟩ := hQ _ _ _ _ _ hI run
  cases h
  exact ⟨hQ', book, s₁, hI', rfl⟩

end Splitting

/-- A host book has room. -/
theorem Settings.one_le_of_hostBookSize {given : Settings} {preferred value : Value} {size : Int}
    (h : given.hostBookSize preferred = .ok (value, size)) : 1 ≤ size := by
  unfold hostBookSize at h
  obtain ⟨_, -, h⟩ := Result.bind_eq_ok.mp h
  obtain ⟨_, -, h⟩ := Result.bind_eq_ok.mp h
  split at h
  · cases h
  · cases h
    omega

/-- Batches are made of adjusted ranges only: the check of the modes refuses them otherwise. So
splits of ranges that are kept whole are single ones. -/
theorem TableScan.batch_eq_false_of_check {scan : TableScan} {table : TableName}
    (h : scan.check table = .ok ()) (adjust : scan.adjust = false) : scan.batch = false := by
  unfold check at h
  cases hb : scan.batch with
  | false => rfl
  | true =>
    rw [hb, adjust] at h
    split at h
    · cases h
    · cases h

/-- A job scans each table once, because its tables are the names of one record. Without this the
splits of a table could not be told by its name. -/
theorem Job.distinct_of_ofRecords {tables : Ledger TableName Json} {settings : Settings} {job : Job}
    (h : ofRecords tables settings = .ok job) (distinct : tables.Distinct) :
    job.scans.Distinct := by
  obtain ⟨scans, read, h⟩ := Result.bind_eq_ok.mp h
  cases h
  have each := Result.forall₂_of_mapM read
  -- reading a record leaves its name as it is, so the names stay distinct
  suffices Ledger.keys scans = tables.keys by
    unfold Ledger.Distinct at distinct ⊢
    rw [this]
    exact distinct
  clear h read distinct
  induction each with
  | nil => rfl
  | cons record _ ih =>
    obtain ⟨scan, -, record⟩ := Result.bind_eq_ok.mp record
    cases record
    exact congrArg (_ :: ·) ih

namespace Planning

/-! ## One table -/

/-- Plans the table that has an id. -/
def planWithId (c : Collaborators ω) (job : Job) (authorizations : List Json)
    (bookSize : Int) (table : TableName) (scan : TableScan) (schedule : Schedule ω) (id : TableId) :
    Step ω (List Split × Schedule ω) := do
  let ranges ← Step.ofResult (KeyRange.normalize scan.ranges scan.adjust)
  Step.note .debug .planning
    ("Locating " ++ toString ranges.length ++ " ranges of table " ++ table.shown ++ " (id=" ++
      id.shown ++ ", offline=" ++ Json.showBool scan.offline ++ ")")
  let pauses ← Step.ofResult (backoff job.settings)
  let (binning, rest) ← Locating.locate c pauses id ranges scan.offline schedule
  let frame : SplitFrame := ⟨table, id, Snapshot.ofScan scan authorizations⟩
  return (← Splitting.make c frame binning scan bookSize, rest)

/-- Planning a table is to check its modes, to ask for its id, and to plan the table that has it. -/
theorem planTable_eq (c : Collaborators ω) (job : Job) (authorizations : List Json)
    (bookSize : Int) (table : TableName) (scan : TableScan) (schedule : Schedule ω) :
    planTable c job authorizations bookSize table scan schedule = (do
      Step.ofResult (scan.check table)
      Step.forTable table do
        let id ← Step.ask .tableId table (c.backend.locator.tableId table)
        planWithId c job authorizations bookSize table scan schedule id) := rfl

section

variable {c : Collaborators ω} {job : Job} {authorizations : List Json} {size : Int}
  {table : TableName} {scan : TableScan} {schedule rest : Schedule ω} {s s' : Session ω}
  {ss : List Split}

/-- A step for a table that gives a value is the step itself. -/
theorem forTable_eq_ok {α : Type} {step : Step ω α} {a : α}
    (h : outcome (Step.forTable table step) s = (.ok a, s')) : outcome step s = (.ok a, s') := by
  unfold Step.forTable at h
  rw [outcome_tryCatch] at h
  rcases hrun : outcome step s with ⟨e | a', s₁⟩
  · rw [hrun] at h
    cases h
  · rw [hrun] at h
    exact h

/-- The plan of a table: its id, its ranges, where they are located, and the splits. Each part
begins in the session in which the one before it has ended, apart from notes. -/
theorem planTable_eq_ok
    (h : outcome (planTable c job authorizations size table scan schedule) s =
      (.ok (ss, rest), s')) :
    scan.check table = .ok () ∧ ∃ id ranges pauses binning s₁ s₂ s₃,
      outcome (Step.ask .tableId table (c.backend.locator.tableId table)) s = (.ok id, s₁) ∧
      KeyRange.normalize scan.ranges scan.adjust = .ok ranges ∧
      backoff job.settings = .ok pauses ∧ s₂.world = s₁.world ∧
      outcome (Locating.locate c pauses id ranges scan.offline schedule) s₂ =
        (.ok (binning, rest), s₃) ∧
      outcome (Splitting.make c ⟨table, id, Snapshot.ofScan scan authorizations⟩ binning scan size)
        s₃ = (.ok ss, s') := by
  unfold planTable at h
  -- one step of the planning after the other, each with the session that it leaves behind
  obtain ⟨_, s₀, checked, h⟩ := outcome_bind_ok.mp h
  rw [Step.outcome_ofResult, Prod.mk.injEq] at checked
  obtain ⟨checked, rfl⟩ := checked
  refine ⟨checked, ?_⟩
  have h := forTable_eq_ok h
  obtain ⟨id, s₁, asked, h⟩ := outcome_bind_ok.mp h
  obtain ⟨ranges, s₂, normalized, h⟩ := outcome_bind_ok.mp h
  rw [Step.outcome_ofResult, Prod.mk.injEq] at normalized
  obtain ⟨normalized, rfl⟩ := normalized
  obtain ⟨_, s₂, noted, h⟩ := outcome_bind_ok.mp h
  cases noted
  obtain ⟨pauses, s₃, given, h⟩ := outcome_bind_ok.mp h
  rw [Step.outcome_ofResult, Prod.mk.injEq] at given
  obtain ⟨given, rfl⟩ := given
  obtain ⟨⟨binning, rest'⟩, s₄, located, h⟩ := outcome_bind_ok.mp h
  obtain ⟨ss', s₅, made, h⟩ := outcome_bind_ok.mp h
  cases h
  refine ⟨id, ranges, pauses, binning, s₁, _, s₄, asked, normalized, given, ?_, located, made⟩
  rfl

end

/-- The splits of a table are its own, and they hold the keys that were requested. This needs
nothing of the store: what is located covers the ranges, whatever the tablets are. -/
theorem exists_mem_planTable_iff {c : Collaborators (Cached ω)} {kind : BackendKind}
    {cat : Catalog ω} (hc : c.backend = .ofCatalog kind cat) {job : Job}
    {authorizations : List Json} {size : Int} {table : TableName} {scan : TableScan}
    {schedule rest : Schedule (Cached ω)} {s s' : Session (Cached ω)} {ss : List Split}
    (h : outcome (planTable c job authorizations size table scan schedule) s =
      (.ok (ss, rest), s')) :
    (∀ split ∈ ss, split.tableName = table) ∧
      ∀ k, KeyRange.AnyHolds (ss.flatMap Split.ranges) k ↔
        scan.ranges = [] ∨ KeyRange.AnyHolds scan.ranges k := by
  obtain ⟨checked, id, ranges, pauses, binning, s₁, s₂, s₃, -, normalized, -, -, located, made⟩ :=
    planTable_eq_ok h
  obtain ⟨s₄, s₅, attempt⟩ := Locating.exists_attempt_of_retry located
  have spread : ∃ node tablets, (∀ r ∈ ranges, Tablet.Cover tablets r) ∧
      binning = .spread node tablets ranges := by
    cases hoff : scan.offline with
    | true =>
      rw [hoff] at attempt
      obtain ⟨tablets, released, e⟩ := Locating.attemptOffline_spread hc attempt
      exact ⟨_, tablets, fun r hr => Offline.cover_of_isReleased (released r hr), e⟩
    | false =>
      rw [hoff] at attempt
      obtain ⟨tablets, hosted, e⟩ := Locating.attemptOnline_spread hc attempt
      exact ⟨_, tablets, fun r hr => Located.cover_of_isLocated (hosted r hr), e⟩
  obtain ⟨node, tablets, covered, rfl⟩ := spread
  -- which hosts the splits name does not matter here
  have any : ∀ node, Naming.Ensures (fun _ _ => True) (Splitting.hosts c node)
      ((fun _ _ => True : Address → List Json → Prop) node) :=
    fun _ _ _ _ _ _ _ _ => ⟨trivial, trivial⟩
  suffices (∀ split ∈ ss, split.tableName = table) ∧
      ∀ k, KeyRange.AnyHolds (ss.flatMap Split.ranges) k ↔ KeyRange.AnyHolds ranges k by
    refine ⟨this.1, fun k => ?_⟩
    rw [this.2, KeyRange.exists_mem_normalize normalized]
  cases hadj : scan.adjust with
  | true =>
    obtain ⟨carry, -⟩ := Splitting.make_eq_ok (Splitting.ensures_adjusted any hadj) trivial made
    have table := carry.choose_spec.2.table
    exact ⟨table, Splitting.anyHolds_iff_of_carryAll covered carry⟩
  | false =>
    have single := TableScan.batch_eq_false_of_check checked hadj
    obtain ⟨⟨bins, hitems, keys, table⟩, -⟩ :=
      Splitting.make_eq_ok (Splitting.ensures_unadjusted any single hadj) trivial made
    exact ⟨table, fun k =>
      (keys k).trans (Splitting.anyHolds_iff_of_wholes covered hitems k)⟩

/-! ## All tables -/

section

variable {c : Collaborators ω} {job : Job} {authorizations : List Json} {size : Int}

/-- The splits of some tables are those of each table in turn, which is planned as an invariant of
the schedule and the session finds it. -/
theorem planTables_eq_ok (Inv : Schedule ω → Session ω → Prop)
    {scans : List (TableName × TableScan)}
    (keeps : ∀ e ∈ scans, ∀ schedule s ss rest s', Inv schedule s →
      outcome (planTable c job authorizations size e.1 e.2 schedule) s = (.ok (ss, rest), s') →
      Inv rest s')
    {schedule : Schedule ω} {s s' : Session ω} {ss : List Split} (hI : Inv schedule s)
    (h : outcome (planTables c job authorizations size scans schedule) s = (.ok ss, s')) :
    ∃ sss, ss = sss.flatten ∧ List.Forall₂ (fun e ss => ∃ schedule s rest s', Inv schedule s ∧
      outcome (planTable c job authorizations size e.1 e.2 schedule) s = (.ok (ss, rest), s'))
        scans sss := by
  -- induction on the tables, for any state to begin with
  induction scans generalizing schedule s ss with
  | nil =>
    cases h
    exact ⟨[], rfl, .nil⟩
  | cons e scans ih =>
    obtain ⟨table, scan⟩ := e
    unfold planTables at h
    obtain ⟨⟨head, rest⟩, s₁, planned, h⟩ := outcome_bind_ok.mp h
    obtain ⟨tail, s₂, run, h⟩ := outcome_bind_ok.mp h
    cases h
    have hI' := keeps _ List.mem_cons_self _ _ _ _ _ hI planned
    obtain ⟨sss, rfl, each⟩ := ih (fun e he => keeps e (List.mem_cons_of_mem _ he)) hI' run
    exact ⟨head :: sss, rfl, .cons ⟨schedule, s, rest, s₁, hI, planned⟩ each⟩

/-- The plan of a job: its settings can be read, and its tables are planned while the log has the
level that it asks for. -/
theorem exists_of_plan {schedule : Schedule ω} {s s' : Session ω} {p : Plan}
    (h : outcome (plan c job authorizations schedule) s = (.ok p, s')) :
    ∃ level value size s₁ notes, job.settings.logLevel .none = .ok level ∧
      job.settings.hostBookSize .none = .ok (value, size) ∧
      outcome (planTables c job authorizations size job.scans schedule)
          { s with level := level.getD s.level } = (.ok p.splits, s₁) ∧
      s' = { s₁.log notes with level := s.level } := by
  unfold plan at h
  by_cases none : job.scans.isEmpty
  · rw [if_pos none] at h
    obtain ⟨_, _, h, -⟩ := outcome_bind_ok.mp h
    cases h
  · rw [if_neg none] at h
    -- reading the settings leaves the session as it is
    obtain ⟨level, s₁, hlevel, h⟩ := outcome_bind_ok.mp h
    rw [Step.outcome_ofResult, Prod.mk.injEq] at hlevel
    obtain ⟨hlevel, rfl⟩ := hlevel
    obtain ⟨⟨value, size⟩, s₂, hsize, h⟩ := outcome_bind_ok.mp h
    rw [Step.outcome_ofResult, Prod.mk.injEq] at hsize
    obtain ⟨hsize, rfl⟩ := hsize
    rw [Step.outcome_atLevel, Prod.mk.injEq] at h
    obtain ⟨splits, s₃, run, ended⟩ := outcome_bind_ok.mp (Prod.ext h.1 rfl)
    have made : p = ⟨splits⟩ := (Except.ok.inj (congrArg Prod.fst ended)).symm
    rw [made]
    have after := h.2.symm
    rw [← congrArg Prod.snd ended] at after
    exact ⟨level, value, size, s₃, _, hlevel, hsize, run, after⟩

/-- The splits of a plan are those of its tables. -/
theorem plan_eq_ok {schedule : Schedule ω} {s s' : Session ω} {p : Plan}
    (h : outcome (plan c job authorizations schedule) s = (.ok p, s')) :
    ∃ (size level : Int) (s₁ : Session ω),
      outcome (planTables c job authorizations size job.scans schedule) { s with level } =
        (.ok p.splits, s₁) := by
  obtain ⟨level, value, size, s₁, -, -, -, run, -⟩ := exists_of_plan h
  exact ⟨size, _, s₁, run⟩

/-- If each table's splits are its own, those of one table are found by its name. The tables have
distinct names, so no others are found. -/
theorem exists_splitsFor {P : TableName × TableScan → List Split → Prop}
    {scans : List (TableName × TableScan)} {sss : List (List Split)}
    (distinct : Ledger.Distinct scans)
    (h : List.Forall₂ (fun e ss => P e ss ∧ ∀ split ∈ ss, split.tableName = e.1) scans sss)
    {e : TableName × TableScan} (he : e ∈ scans) : P e ((Plan.mk sss.flatten).splitsFor e.1) := by
  unfold Plan.splitsFor
  induction h with
  | nil => cases he
  | @cons e' ss scans sss head tail ih =>
    obtain ⟨first, rest⟩ := Ledger.distinct_cons.mp distinct
    rw [List.flatten_cons, List.filter_append]
    rcases List.mem_cons.mp he with rfl | he
    · -- the head has the splits of its table, and no later table has that name
      have own : ss.filter (fun split => split.tableName == e.1) = ss := by
        refine List.filter_eq_self.mpr fun split hs => ?_
        rw [head.2 split hs]
        exact BEq.rfl
      have others : sss.flatten.filter (fun split => split.tableName == e.1) = [] := by
        refine List.filter_eq_nil_iff.mpr fun split hs => ?_
        obtain ⟨ss', hss', hs⟩ := List.mem_flatten.mp hs
        obtain ⟨e', he', each⟩ := Result.exists_of_forall₂_of_mem tail hss'
        rw [each.2 split hs, BEq.comm, first e' he']
        exact Bool.false_ne_true
      rw [own, others, List.append_nil]
      exact head.1
    · have others : ss.filter (fun split => split.tableName == e.1) = [] := by
        refine List.filter_eq_nil_iff.mpr fun split hs => ?_
        rw [head.2 split hs, first e he]
        exact Bool.false_ne_true
      rw [others, List.nil_append]
      exact ih rest he

end

/-- No row is lost by planning, and none is added: the splits of a table hold the keys that were
requested of it, whatever tablets the catalog lists and whatever happens in the pauses. -/
theorem exists_mem_plan_iff {c : Collaborators (Cached ω)} {kind : BackendKind} {cat : Catalog ω}
    (hc : c.backend = .ofCatalog kind cat) {job : Job} {authorizations : List Json}
    {schedule : Schedule (Cached ω)} {s s' : Session (Cached ω)} {p : Plan}
    (distinct : job.scans.Distinct)
    (h : outcome (plan c job authorizations schedule) s = (.ok p, s'))
    {table : TableName} {scan : TableScan} (configured : (table, scan) ∈ job.scans)
    (k : RowKey) :
    KeyRange.AnyHolds ((p.splitsFor table).flatMap Split.ranges) k ↔
      scan.ranges = [] ∨ KeyRange.AnyHolds scan.ranges k := by
  obtain ⟨size, level, s₁, planned⟩ := plan_eq_ok h
  -- what is requested of a table does not depend on the turns of the tables before it
  obtain ⟨sss, flat, each⟩ := planTables_eq_ok (fun _ _ => True)
    (fun _ _ _ _ _ _ _ _ _ => trivial) trivial planned
  have own : List.Forall₂ (fun (e : TableName × TableScan) (ss : List Split) =>
      (∀ k, KeyRange.AnyHolds (ss.flatMap Split.ranges) k ↔
        e.2.ranges = [] ∨ KeyRange.AnyHolds e.2.ranges k) ∧
      ∀ split ∈ ss, split.tableName = e.1) job.scans sss := by
    refine each.imp fun e ss turn => ?_
    obtain ⟨_, _, _, _, -, run⟩ := turn
    obtain ⟨table, keys⟩ := exists_mem_planTable_iff hc run
    exact ⟨keys, table⟩
  have keys := exists_splitsFor distinct own configured
  rw [← flat] at keys
  exact keys k

/-- A job that reads a range of a table that is split once. -/
def halvesJob : Job := ⟨[(.text "t", { TableScan.plain with ranges := [.acrossHalves] })], []⟩

/-- The plan for the table, whose upper tablet finds a place in the first pause. -/
def halvesRun : Result Plan × Session (Cached Registry) :=
  outcome (plan Registry.collaborators halvesJob []
      ([Registry.moveUpperHalf (some (.text "b:1"))].map Locator.behind))
    (Registry.staleSession .halfHosted)

theorem exists_halvesRun : ∃ p s', halvesRun = (.ok p, s') :=
  exists_of_isOk_outcome (by decide +kernel)

/-- The keys of the splits are those of the range that is asked for, which lies in both tablets. -/
theorem exists_mem_plan_halves : ∃ p s', halvesRun = (.ok p, s') ∧
    ∀ k, KeyRange.AnyHolds ((p.splitsFor (.text "t")).flatMap Split.ranges) k ↔
      k ∈ KeyRange.acrossHalves := by
  obtain ⟨p, s', planned⟩ := exists_halvesRun
  have distinct : halvesJob.scans.Distinct := List.pairwise_singleton _ _
  refine ⟨p, s', planned, fun k => ?_⟩
  rw [exists_mem_plan_iff Registry.backend_collaborators distinct planned List.mem_cons_self k]
  unfold KeyRange.AnyHolds
  simp

end Planning

end ScanPlanner
