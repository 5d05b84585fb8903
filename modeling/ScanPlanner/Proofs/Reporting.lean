import ScanPlanner.Planning.Rehearsal
import ScanPlanner.Proofs.Watching

/-!
# How a failure is reported

Planning a job stops at the first thing that goes wrong, wherever that is. A call that fails is the
last one, and the failure is reported once: as it is, if it is a failure of planning, and otherwise
as the cause of one that names the table whose turn it was. A table whose modes do not go together
is not asked about, and neither are those after it. Either way the log gets its level back
(`Planning.plan_reports_failure`).
-/

namespace ScanPlanner.Planning

variable {ω : Type} {c : Collaborators ω} {job : Job} {authorizations : List Json} {size : Int}

/-! ## Tables in turn -/

/-- Some tables planned in turn mirror each other, and a failure is reported as that of one of
them. -/
theorem mirrors_planTables (c : Collaborators ω) (job : Job) (authorizations : List Json)
    (size : Int) (scans : List (TableName × TableScan)) (schedule : Schedule ω) :
    Mirrors (fun f g => ∃ e ∈ scans, g = f.ofTable e.1) Eq
      (planTables c job authorizations size scans schedule)
      (planTables c.watched job authorizations size scans schedule.watched) := by
  induction scans generalizing schedule with
  | nil => exact .pure rfl
  | cons e scans ih =>
    obtain ⟨table, scan⟩ := e
    unfold planTables
    have first := mirrors_planTable c job authorizations size table scan schedule
    refine (first.mono ?_).bind ?_
    · exact fun f g e => ⟨(table, scan), List.mem_cons_self, e⟩
    · rintro ⟨splits, rest⟩ _ rfl
      refine ((ih rest).mono ?_).bind_eq fun _ => .pure rfl
      rintro f g ⟨e, he, h⟩
      exact ⟨e, List.mem_cons_of_mem _ he, h⟩

/-- If planning some tables fails, it is at one of them, after those before it have been planned and
all their calls been answered, and what the calls of its turn tell is the failure. -/
theorem told_of_planTables_error {scans : List (TableName × TableScan)} {schedule : Schedule ω}
    {s s' : Session (Watched ω)} {g : Failure} (before : Answered s.world.calls)
    (h : outcome (planTables c.watched job authorizations size scans schedule.watched) s =
      (.error g, s')) :
    ∃ earlier table scan later ss s₁ more, scans = earlier ++ (table, scan) :: later ∧
      outcome (planTables c.watched job authorizations size earlier schedule.watched) s =
        (.ok ss, s₁) ∧
      outcome (planTables c.watched job authorizations size (earlier ++ [(table, scan)])
        schedule.watched) s = (.error g, s') ∧
      Answered s₁.world.calls ∧ s'.world.calls = s₁.world.calls ++ more ∧
      Told (fun f g => g = f.ofTable table) (.error g : Result (List Split)) more := by
  induction scans generalizing schedule s with
  | nil => cases h
  | cons e scans ih =>
    obtain ⟨table, scan⟩ := e
    obtain ⟨agree, -, more, calls, told⟩ :=
      mirrors_planTable c job authorizations size table scan schedule s
    unfold planTables at h
    rcases hrun : outcome (planTable c.watched job authorizations size table scan
      schedule.watched) s with ⟨f | planned, s₁⟩
    · -- the first table fails
      rw [outcome_bind, hrun] at h
      rw [hrun] at calls told
      cases h
      refine ⟨[], table, scan, scans, [], s, more, rfl, rfl, ?_, before, calls, told.of_error⟩
      show outcome (planTables _ _ _ _ [(table, scan)] _) s = _
      unfold planTables
      rw [outcome_bind, hrun]
    · rw [outcome_bind, hrun] at h
      rw [hrun] at agree calls told
      obtain ⟨splits, rest⟩ := planned
      -- the schedule that is left for the others is watched too
      obtain ⟨rest, rfl⟩ : ∃ rest' : Schedule ω, rest = rest'.watched := by
        generalize (outcome (planTable c job authorizations size table scan schedule)
          s.unwatched).1 = r at agree
        cases agree with
        | @ok planned _ e => exact ⟨planned.2, congrArg Prod.snd e⟩
      have answered : Answered s₁.world.calls := by
        rw [show s₁.world.calls = _ from calls]
        exact before.append told.answered_of_ok
      rcases outcome_bind_error.mp h with h | ⟨_, _, -, h⟩
      · obtain ⟨earlier, table', scan', later, ss, s₂, more', rfl, good, bad, rest'⟩ :=
          ih answered h
        refine ⟨(table, scan) :: earlier, table', scan', later, splits ++ ss, s₂, more', rfl, ?_,
          ?_, rest'⟩
        · unfold planTables
          rw [outcome_bind, hrun]
          dsimp only
          rw [outcome_bind, good]
          rfl
        · show outcome (planTables _ _ _ _ ((table, scan) :: (earlier ++ [_])) _) s = _
          unfold planTables
          rw [outcome_bind, hrun]
          dsimp only
          rw [outcome_bind, bad]
      · cases h

/-- A call that fails is the last one. It is made in the turn of a table, and it is reported as a
failure of this table. -/
theorem reported_of_failed_call {scans : List (TableName × TableScan)} {schedule : Schedule ω}
    {s s' : Session (Watched ω)} {r : Result (List Split)} (before : Answered s.world.calls)
    (h : outcome (planTables c.watched job authorizations size scans schedule.watched) s = (r, s'))
    {call : Call} {f : Failure} (failed : ⟨call, some f⟩ ∈ s'.world.calls) :
    (∃ calls, s'.world.calls = calls ++ [⟨call, some f⟩] ∧ Answered calls) ∧
    ∃ earlier table scan later ss s₁, scans = earlier ++ (table, scan) :: later ∧
      outcome (planTables c.watched job authorizations size earlier schedule.watched) s =
        (.ok ss, s₁) ∧ Answered s₁.world.calls ∧
      outcome (planTables c.watched job authorizations size (earlier ++ [(table, scan)])
        schedule.watched) s = (.error (f.ofTable table), s') ∧
      r = .error (f.ofTable table) := by
  cases r with
  | error g =>
    obtain ⟨earlier, table, scan, later, ss, s₁, more, parts, good, bad, answered, made, told⟩ :=
      told_of_planTables_error before h
    rw [made] at failed
    rcases List.mem_append.mp failed with failed | failed
    · -- the calls for the tables before it have all been answered
      cases answered _ failed
    · obtain ⟨⟨calls, rfl, hcalls⟩, g', e, reported⟩ := told.last_of_mem failed
      cases e
      rw [reported] at bad ⊢
      refine ⟨⟨s₁.world.calls ++ calls, ?_, answered.append hcalls⟩, earlier, table, scan, later,
        ss, s₁, parts, good, answered, bad, rfl⟩
      rw [List.append_assoc]
      exact made
  | ok ss =>
    -- if nothing fails, all calls have been answered
    obtain ⟨-, -, more, made, told⟩ :=
      mirrors_planTables c job authorizations size scans schedule s
    rw [h] at made told
    have made : s'.world.calls = s.world.calls ++ more := made
    rw [made] at failed
    cases before.append told.answered_of_ok _ failed

/-- A table whose modes do not go together ends the planning, if none before it has done so. Its
failure is reported as it is, without the name of the table. -/
theorem outcome_planTables_of_check {table : TableName} {scan : TableScan} {f : Failure}
    (refused : scan.check table = .error f) {earlier : List (TableName × TableScan)}
    {schedule : Schedule ω} {s s' : Session ω} {r : Result (List Split)}
    (h : outcome (planTables c job authorizations size earlier schedule) s = (r, s'))
    (later : List (TableName × TableScan)) :
    outcome (planTables c job authorizations size (earlier ++ (table, scan) :: later) schedule) s =
      (.error ((Result.failure? r).getD f), s') := by
  induction earlier generalizing schedule s r with
  | nil =>
    cases h
    show outcome (planTables _ _ _ _ ((table, scan) :: later) _) _ = _
    unfold planTables planTable
    rw [refused]
    rfl
  | cons e earlier ih =>
    obtain ⟨table', scan'⟩ := e
    rw [List.cons_append]
    unfold planTables at h ⊢
    rw [outcome_bind] at h ⊢
    rcases hrun : outcome (planTable c job authorizations size table' scan' schedule) s with
      ⟨g | ⟨ss, rest⟩, s₁⟩
    · rw [hrun] at h
      cases h
      rfl
    · rw [hrun] at h
      dsimp only at h ⊢
      rw [outcome_bind] at h ⊢
      rcases others : outcome (planTables c job authorizations size earlier rest) s₁ with
        ⟨g | ss', s₂⟩
      · rw [others] at h
        cases h
        rw [ih others]
      · rw [others] at h
        cases h
        rw [ih others]
        rfl

/-! ## A job -/

/-- A step that is run at a level of logging is mirrored if it is mirrored itself, as the level is
the same on both sides. -/
theorem mirrors_atLevel {α β : Type} {reports : Failure → Failure → Prop} {R : α → β → Prop}
    {x : Step ω α} {y : Step (Watched ω) β} (level : Option Int) (h : Mirrors reports R x y) :
    Mirrors reports R (Step.atLevel level x) (Step.atLevel level y) := by
  intro s
  obtain ⟨agree, same, rest⟩ := h { s with level := level.getD s.level }
  rw [Step.outcome_atLevel, Step.outcome_atLevel]
  refine ⟨agree, ?_, rest⟩
  exact congrArg (fun after : Session ω => ({ after with level := s.level } : Session ω)) same

/-- Planning while being watched goes as planning does, except that failures are reported for the
table at which they came. -/
theorem mirrors_plan (c : Collaborators ω) (job : Job) (authorizations : List Json)
    (schedule : Schedule ω) :
    Mirrors (fun f g => ∃ e ∈ job.scans, g = f.ofTable e.1) Eq (plan c job authorizations schedule)
      (plan c.watched job authorizations schedule.watched) := by
  unfold plan
  by_cases empty : job.scans.isEmpty = true
  · rw [if_pos empty, if_pos empty]
    exact .throw_bind _
  · rw [if_neg empty, if_neg empty]
    refine (Mirrors.ofResult _).bind_eq fun level => ?_
    refine (Mirrors.ofResult _).bind_eq fun found => mirrors_atLevel level ?_
    refine (mirrors_planTables c job authorizations found.2 job.scans schedule).bind_eq fun _ => ?_
    exact (Mirrors.note _ _ _).bind_eq fun _ => .pure rfl

/-- Whatever becomes of a job, the log gets its level back, also if a table fails. -/
theorem level_plan (c : Collaborators ω) (job : Job) (authorizations : List Json)
    (schedule : Schedule ω) (s : Session ω) :
    (outcome (plan c job authorizations schedule) s).2.level = s.level := by
  unfold plan
  by_cases empty : job.scans.isEmpty = true
  · rw [if_pos empty]
    rfl
  · rw [if_neg empty, outcome_bind, Step.outcome_ofResult]
    cases job.settings.logLevel .none with
    | error f => rfl
    | ok level =>
      dsimp only
      rw [outcome_bind, Step.outcome_ofResult]
      cases job.settings.hostBookSize .none with
      | error f => rfl
      | ok found => rfl

/-- Planning some of a job's tables, watched. -/
def watchedTables (c : Collaborators ω) (job : Job) (authorizations : List Json) (size : Int)
    (level : Option Int) (schedule : Schedule ω) (s : Session ω)
    (scans : List (TableName × TableScan)) : Result (List Split) × Session (Watched ω) :=
  outcome (planTables c.watched job authorizations size scans schedule.watched)
    { s.watched with level := level.getD s.watched.level }

section

variable {level : Option Int} {v : Value} {schedule : Schedule ω} {s : Session ω}

/-- The calls made for a job are those made for its tables. Reading the settings makes none, and
neither does the last note. -/
theorem calls_plan (hlevel : job.settings.logLevel .none = .ok level)
    (hsize : job.settings.hostBookSize .none = .ok (v, size)) :
    (outcome (plan c.watched job authorizations schedule.watched) s.watched).2.world.calls =
      (watchedTables c job authorizations size level schedule s job.scans).2.world.calls := by
  unfold watchedTables
  by_cases empty : job.scans = []
  · unfold plan
    rw [empty]
    rfl
  · rw [outcome_plan empty hlevel hsize, Step.outcome_atLevel, outcome_bind]
    rcases outcome (planTables c.watched job authorizations size job.scans schedule.watched)
      { s.watched with level := level.getD s.watched.level } with ⟨f | ss, s'⟩
    · rfl
    · rfl

/-- Once the settings of a job are read, a failure of its tables is the failure of the job, as it
is. -/
theorem plan_eq_error_of_tables (tables : job.scans ≠ [])
    (hlevel : job.settings.logLevel .none = .ok level)
    (hsize : job.settings.hostBookSize .none = .ok (v, size)) {f : Failure}
    (h : (watchedTables c job authorizations size level schedule s job.scans).1 = .error f) :
    (outcome (plan c job authorizations schedule) s).1 = .error f := by
  obtain ⟨agree, -⟩ := mirrors_plan c job authorizations schedule s.watched
  have failed := plan_eq_error_iff.mpr
    (.inr ⟨tables, .inr ⟨level, hlevel, .inr ⟨v, size, hsize, h⟩⟩⟩)
  exact agree.eq.symm.trans failed

end

/-- For any job whose settings can be read, watching its collaborators changes nothing, and
whatever becomes of the job, the log has its level again. If a call fails, it is the last one, and
nothing is planned: the failure is reported as it is if it is one of planning, and otherwise as the
cause of one that names the table whose turn it was, the tables before it having been planned. And
if the modes of a table do not go together, no call is made but for the tables before it; unless
one of these fails, the table is refused. -/
theorem plan_reports_failure (c : Collaborators ω) (job : Job) (authorizations : List Json)
    (schedule : Schedule ω) (s : Session ω) {level : Option Int} {v : Value}
    (hlevel : job.settings.logLevel .none = .ok level)
    (hsize : job.settings.hostBookSize .none = .ok (v, size)) :
    let run := outcome (plan c job authorizations schedule) s
    let seen := outcome (plan c.watched job authorizations schedule.watched) s.watched
    let tables := watchedTables c job authorizations size level schedule s
    (seen.1 = run.1 ∧ seen.2.unwatched = run.2) ∧
    run.2.level = s.level ∧
    (∀ call f, ⟨call, some f⟩ ∈ seen.2.world.calls →
      (∃ before, seen.2.world.calls = before ++ [⟨call, some f⟩] ∧ Answered before) ∧
      ∃ earlier table scan later, job.scans = earlier ++ (table, scan) :: later ∧
        (∃ ss, (tables earlier).1 = .ok ss) ∧ Answered (tables earlier).2.world.calls ∧
        seen.2.world.calls = (tables (earlier ++ [(table, scan)])).2.world.calls ∧
        (f.isPlanning = true → run.1 = .error f) ∧
        (f.isPlanning = false → ∃ g, run.1 = .error g ∧ g = .tableFailed table.shown f ∧
          g.message? = some ("Failed to plan splits for table " ++ table.shown) ∧
          g.cause? = some f)) ∧
    ∀ earlier table scan later f, job.scans = earlier ++ (table, scan) :: later →
      scan.check table = .error f →
        seen.2.world.calls = (tables earlier).2.world.calls ∧
        run.1 = .error ((Result.failure? (tables earlier).1).getD f) := by
  intro run seen tables
  obtain ⟨agree, same, -⟩ := mirrors_plan c job authorizations schedule s.watched
  have calls : seen.2.world.calls = (tables job.scans).2.world.calls := calls_plan hlevel hsize
  refine ⟨⟨agree.eq, same⟩, level_plan c job authorizations schedule s, ?_, ?_⟩
  · intro call f failed
    rw [calls] at failed ⊢
    obtain ⟨last, earlier, table, scan, later, ss, s₁, parts, good, answered, bad, result⟩ :=
      reported_of_failed_call answered_nil rfl failed
    have there : job.scans ≠ [] := by simp [parts]
    have result : run.1 = .error (f.ofTable table) :=
      plan_eq_error_of_tables there hlevel hsize result
    have good : tables earlier = (.ok ss, s₁) := good
    have bad : tables (earlier ++ [(table, scan)]) =
      (.error (f.ofTable table), (tables job.scans).2) := bad
    refine ⟨last, earlier, table, scan, later, parts, ?_, ?_, ?_, ?_, ?_⟩
    · rw [good]
      exact ⟨ss, rfl⟩
    · rw [good]
      exact answered
    · rw [bad]
    · intro planning
      rw [result, Failure.ofTable_of_isPlanning planning]
    · intro other
      rw [Failure.ofTable_of_not_isPlanning other] at result
      exact ⟨_, result, rfl, rfl, rfl⟩
  · intro earlier table scan later f parts refused
    have there : job.scans ≠ [] := by simp [parts]
    have ended : tables job.scans =
        (.error ((Result.failure? (tables earlier).1).getD f), (tables earlier).2) := by
      show watchedTables _ _ _ _ _ _ _ job.scans = _
      rw [parts]
      exact outcome_planTables_of_check refused rfl later
    rw [calls, ended]
    exact ⟨rfl, plan_eq_error_of_tables there hlevel hsize (congrArg Prod.fst ended)⟩

/-- Collaborators in front of a registry that cannot look the host `b` up. -/
def withoutHost : Collaborators (Cached Registry) :=
  Script.collaborators ⟨[], ["b"], [], []⟩ (.ofCatalog .inMemory Registry.catalog)

/-- The host of the second half is looked up last, and the failure is reported as the cause of one
that names the table. -/
theorem plan_reports_failed_lookUp :
    (outcome (plan withoutHost halvesJob [] [])
      (Registry.staleSession (.halves .online (some (.text "a:1")) (some (.text "b:1"))))).1 =
        .error (.tableFailed "t" (.raised "lookup failed: b")) := by
  obtain ⟨-, -, reported, -⟩ := plan_reports_failure withoutHost halvesJob [] []
    (Registry.staleSession (.halves .online (some (.text "a:1")) (some (.text "b:1")))) rfl rfl
  obtain ⟨-, earlier, table, scan, later, parts, -, -, -, -, other⟩ :=
    reported (.lookUp "b") (.raised "lookup failed: b") (by decide +kernel)
  obtain ⟨g, failed, rfl, -⟩ := other rfl
  -- there is only one table
  have table : (table, scan) ∈ halvesJob.scans := by simp [parts]
  cases List.mem_singleton.mp table
  exact failed

end ScanPlanner.Planning
