import ScanPlanner.Proofs.Planning

/-!
# How planning fails

Once the settings of the job are read, planning fails with failures of planning only: a refusal
passes, and whatever else goes wrong with a table is wrapped (`Planning.isPlanning_of_planTables`).
Of the two settings that are read before that, the level of the log is refused as a failure of
planning too, and so is a size of the host book below one. But a size that is no number leaves
planning as the failure of its conversion, and that is the only such failure
(`Planning.plan_fails_otherwise_iff`, `Planning.plan_many`).
-/

namespace ScanPlanner

/-! ## Reading the settings of a job -/

/-- A value that is no whole number fails with the failure of its conversion, which is none of
planning. -/
theorem Json.isPlanning_of_toInteger {v : Json} {f : Failure} (h : v.toInteger = .error f) :
    f.isPlanning = false := by
  unfold Json.toInteger at h
  split at h
  · cases h
  · cases h
  · next s =>
    cases hr : Integer.read s with
    | ok n =>
      rw [hr] at h
      cases h
    | error fault =>
      rw [hr] at h
      cases h
      -- a text that is no number fails as one of the language's own errors
      cases fault <;> rfl
  · cases h
    rfl
  · split at h
    · cases h
    · cases h
      rfl
  · cases h
    rfl

namespace Value

/-- A value of a setting that is no whole number does not fail as planning does, whether it is a
number, a text or something else. -/
theorem isPlanning_of_toInteger {v : Value} {f : Failure} (h : v.toInteger = .error f) :
    f.isPlanning = false := by
  unfold toInteger at h
  split at h
  · cases h
    rfl
  · cases h
  · exact Json.isPlanning_of_toInteger h
  · split at h
    · exact Json.isPlanning_of_toInteger h
    · cases h
      rfl

/-- A value that is no truth value does not fail as planning does. Numbers always have a truth
value; texts may be other words. -/
theorem isPlanning_of_toFlag {v : Value} {f : Failure} (h : v.toFlag = .error f) :
    f.isPlanning = false := by
  unfold toFlag at h
  split at h
  · cases h
  · cases h
  · cases h
  · split at h
    · split at h
      · cases h
      · cases h
        rfl
    · cases h
      rfl

/-- A value that is none of the choices does not fail as planning does either: a text that names
none is invalid, and what is no text is refused as such. -/
theorem isPlanning_of_toChoice {e : Enumeration} {v : Value} {f : Failure}
    (h : v.toChoice e = .error f) : f.isPlanning = false := by
  have of_text (s : String) (hs : toChoice.ofText e v s = .error f) : f.isPlanning = false := by
    unfold toChoice.ofText at hs
    split at hs
    · cases hs
    · cases hs
      rfl
  unfold toChoice at h
  split at h
  · split at h
    · cases h
    · exact of_text _ h
  · exact of_text _ h
  · cases h
    rfl

/-- A value that cannot be converted is not a failure of planning, whatever the kind. So a job with
such a setting fails otherwise unless the failure is caught. -/
theorem isPlanning_of_convert {k : Kind} {v : Value} {f : Failure} (h : v.convert k = .error f) :
    f.isPlanning = false := by
  -- the converters are the only parts that can fail here
  unfold convert at h
  split at h
  · cases h
  · split at h
    · rcases Result.bind_eq_error.mp h with h | ⟨_, _, h⟩
      · exact isPlanning_of_toChoice h
      · cases h
    · rcases Result.bind_eq_error.mp h with h | ⟨_, _, h⟩
      · exact isPlanning_of_toFlag h
      · cases h
    · split at h
      · cases h
      · split at h
        · cases h
        · rcases Result.bind_eq_error.mp h with h | ⟨_, _, h⟩
          · exact isPlanning_of_toInteger h
          · cases h
        · cases h
          rfl

/-- A value that has been converted to a whole number can be read as one, also if it is a truth
value that was passed on as it is. -/
theorem exists_wholeOf_of_convert {v w : Value} (there : v.isSome = true)
    (h : v.convert .integer = .ok w) : ∃ n, Settings.wholeOf w = .ok n := by
  unfold convert at h
  rw [there] at h
  simp only [Bool.not_true, Bool.false_eq_true, if_false] at h
  split at h
  · next whole =>
    cases h
    -- the value is a whole number or a truth value already
    cases v with
    | choice c => cases whole
    | plain v => cases v with
      | int n => exact ⟨n, rfl⟩
      | bool b => exact ⟨_, rfl⟩
      | _ => cases whole
  · obtain ⟨n, -, h⟩ := Result.bind_eq_ok.mp h
    cases h
    exact ⟨n, rfl⟩

/-- Any value has a text, so a level of the log can be looked up whatever is given for it. -/
theorem exists_text_of_convert {v : Value} (there : v.isSome = true) :
    ∃ w name, v.convert .text = .ok w ∧ w.text? = some name := by
  unfold convert
  rw [there]
  simp only [Bool.not_true, Bool.false_eq_true, if_false]
  by_cases text : v.isOf .text = true
  · rw [if_pos text]
    cases v with
    | choice c => exact ⟨_, _, rfl, rfl⟩
    | plain v => cases v with
      | text s => exact ⟨_, s, rfl, rfl⟩
      | _ => cases text
  · rw [if_neg text]
    exact ⟨_, _, rfl, rfl⟩

end Value

namespace Settings

variable {given : Settings} {f : Failure}

/-- A setting has the value that is given for it, converted, or else its own. Null is as good as
nothing given. -/
theorem value_cases (given : Settings) (s : Setting) :
    (given.value s .none = .ok s.fallback ∧
        ∀ v, given.get? s.key = some v → v.isSome = false) ∨
      ∃ v, given.get? s.key = some v ∧ v.isSome = true ∧
        given.value s .none = v.convert s.kind := by
  unfold value
  cases hv : given.get? s.key with
  | none => exact .inl ⟨rfl, fun v h => nomatch h⟩
  | some v =>
    -- a setting that was given nothing has its own value, as one that was not given
    cases there : v.isSome with
    | false =>
      refine .inl ⟨?_, fun w hw => ?_⟩
      · show (if v.isSome = true then _ else _) = _
        rw [there]
        rfl
      · rw [← Option.some.inj hw]
        exact there
    | true => exact .inr ⟨v, rfl, there, by simp [there]⟩

/-- The level of the log is refused if it is not known, and reading it fails in no other way,
because every value has a text to look up. -/
theorem isPlanning_of_logLevel (h : given.logLevel .none = .error f) : f.isPlanning = true := by
  unfold logLevel at h
  rcases value_cases given .logLevel with ⟨own, -⟩ | ⟨v, -, there, converted⟩
  · rw [own] at h
    cases h
  · obtain ⟨w, name, hw, text⟩ := Value.exists_text_of_convert there
    rw [converted, show v.convert Setting.logLevel.kind = .ok w from hw, Result.bind_ok, text] at h
    dsimp only at h
    split at h
    · cases h
    · split at h
      · cases h
      · cases h
        rfl

/-- The size of the host book is the value given for it, as long as that converts, and one below one
is refused. -/
theorem hostBookSize_eq_error : given.hostBookSize .none = .error f ↔
    (∃ v, given.get? Setting.hostBookSize.key = some v ∧ v.convert .integer = .error f) ∨
      ∃ v n, given.value .hostBookSize .none = .ok v ∧ wholeOf v = .ok n ∧ n < 1 ∧
        f = .refused (.hostCacheSize Setting.hostBookSize.key n) := by
  -- a value that has been found is a whole number, so what remains is its bound
  have found {w : Value} {n : Int} (hw : given.value .hostBookSize .none = .ok w)
      (hn : wholeOf w = .ok n) : given.hostBookSize .none = .error f ↔
        n < 1 ∧ f = .refused (.hostCacheSize Setting.hostBookSize.key n) := by
    unfold hostBookSize
    rw [hw, Result.bind_ok, hn, Result.bind_ok]
    by_cases small : n < 1
    · rw [if_pos small]
      simp [small, eq_comm]
    · rw [if_neg small]
      simp [small]
  rcases value_cases given .hostBookSize with ⟨own, absent⟩ | ⟨v, hv, there, converted⟩
  · rw [found own rfl]
    constructor
    · exact fun h => .inr ⟨_, _, own, rfl, h⟩
    · rintro (⟨v, hv, bad⟩ | ⟨w, n, hw, hn, h⟩)
      · unfold Value.convert at bad
        rw [absent v hv] at bad
        cases bad
      · exact (found own rfl).mp ((found hw hn).mpr h)
  · cases hw : v.convert .integer with
    | error g =>
      have bad : given.value .hostBookSize .none = .error g := converted.trans hw
      unfold hostBookSize
      rw [bad, hv, Result.bind_error]
      simp [hw]
    | ok w =>
      have good : given.value .hostBookSize .none = .ok w := converted.trans hw
      obtain ⟨n, hn⟩ := Value.exists_wholeOf_of_convert there hw
      rw [found good hn]
      constructor
      · exact fun h => .inr ⟨w, n, good, hn, h⟩
      · rintro (⟨v', hv', bad⟩ | ⟨w', n', hw', hn', h⟩)
        · cases Option.some.inj (hv.symm.trans hv')
          cases hw.symm.trans bad
        · exact (found good hn).mp ((found hw' hn').mpr h)

end Settings

/-- What a failure to plan a table is reported as: a failure of planning as it is, and any other
one as the cause of one that names the table. -/
def Failure.ofTable (table : TableName) (f : Failure) : Failure :=
  if f.isPlanning then f else .tableFailed table.shown f

namespace Failure

theorem ofTable_of_isPlanning {f : Failure} (h : f.isPlanning = true) (table : TableName) :
    f.ofTable table = f := if_pos h

/-- Any other failure is the cause of one that names the table. -/
theorem ofTable_of_not_isPlanning {f : Failure} (h : f.isPlanning = false) (table : TableName) :
    f.ofTable table = .tableFailed table.shown f := by
  unfold ofTable
  rw [h]
  rfl

/-- Either way what is reported is a failure of planning. -/
theorem isPlanning_ofTable (f : Failure) (table : TableName) :
    (f.ofTable table).isPlanning = true := by
  cases h : f.isPlanning with
  | true => rw [ofTable_of_isPlanning h, h]
  | false => rw [ofTable_of_not_isPlanning h, isPlanning]

end Failure

namespace Planning

variable {ω α : Type} {c : Collaborators ω} {job : Job} {authorizations : List Json} {size : Int}
  {table : TableName} {s s' : Session ω} {f : Failure}

/-! ## Failing tables -/

/-- A step for a table fails if the step itself does, and reports its failure for the table.
Failures of planning are reported as they are. -/
theorem forTable_eq_error {step : Step ω α}
    (h : outcome (Step.forTable table step) s = (.error f, s')) :
    ∃ g, outcome step s = (.error g, s') ∧ f = g.ofTable table := by
  unfold Step.forTable at h
  rw [outcome_tryCatch] at h
  rcases hrun : outcome step s with ⟨g | a, s₁⟩
  · rw [hrun] at h
    cases h
    exact ⟨g, rfl, rfl⟩
  · rw [hrun] at h
    cases h

/-- Planning a table fails with failures of planning only: the check of the modes makes such ones,
and all else is wrapped. -/
theorem isPlanning_of_planTable {scan : TableScan} {schedule : Schedule ω}
    (h : outcome (planTable c job authorizations size table scan schedule) s = (.error f, s')) :
    f.isPlanning = true := by
  unfold planTable at h
  rcases outcome_bind_error.mp h with h | ⟨_, s₁, -, h⟩
  · -- the modes of the scan do not go together
    rw [Step.outcome_ofResult, Prod.mk.injEq] at h
    have refused := h.1
    unfold TableScan.check at refused
    split at refused
    · cases refused
      rfl
    · split at refused
      · cases refused
        rfl
      · cases refused
  · obtain ⟨g, -, wrapped⟩ := forTable_eq_error h
    rw [wrapped]
    exact g.isPlanning_ofTable table

/-- Planning the tables one after the other fails only as planning does, since planning each of them
does. -/
theorem isPlanning_of_planTables {scans : List (TableName × TableScan)} {schedule : Schedule ω}
    (h : outcome (planTables c job authorizations size scans schedule) s = (.error f, s')) :
    f.isPlanning = true := by
  induction scans generalizing schedule s with
  | nil => cases h
  | cons e scans ih =>
    obtain ⟨table, scan⟩ := e
    unfold planTables at h
    rcases outcome_bind_error.mp h with h | ⟨⟨splits, rest⟩, s₁, -, h⟩
    · exact isPlanning_of_planTable h
    · rcases outcome_bind_error.mp h with h | ⟨_, _, -, h⟩
      · exact ih h
      · cases h

/-! ## Failing jobs -/

/-- Once the settings of the job are read, what becomes of it is what becomes of its tables. A job
without tables is refused before. -/
theorem outcome_plan {schedule : Schedule ω} {level : Option Int} {v : Value}
    (tables : job.scans ≠ []) (hlevel : job.settings.logLevel .none = .ok level)
    (hsize : job.settings.hostBookSize .none = .ok (v, size)) (s : Session ω) :
    outcome (plan c job authorizations schedule) s = outcome (Step.atLevel level do
      let splits ← planTables c job authorizations size job.scans schedule
      Step.note .info .planning
        ("Planned " ++ toString splits.length ++ " splits for " ++ toString job.scans.length ++
          " tables")
      return (⟨splits⟩ : Plan)) s := by
  unfold plan
  rw [if_neg (by rwa [List.isEmpty_iff]), hlevel, hsize]
  rfl

/-- Where the failure of a job comes from: it has no tables, one of its two settings cannot be read,
or its tables fail. -/
theorem plan_eq_error_iff {schedule : Schedule ω} :
    (outcome (plan c job authorizations schedule) s).1 = .error f ↔
      job.scans = [] ∧ f = .refused .noTables ∨ job.scans ≠ [] ∧
        (job.settings.logLevel .none = .error f ∨
          ∃ level, job.settings.logLevel .none = .ok level ∧
            (job.settings.hostBookSize .none = .error f ∨
              ∃ v size, job.settings.hostBookSize .none = .ok (v, size) ∧
                (outcome (planTables c job authorizations size job.scans schedule)
                  { s with level := level.getD s.level }).1 = .error f)) := by
  by_cases empty : job.scans = []
  · have refused : (outcome (plan c job authorizations schedule) s).1 =
        .error (.refused .noTables) := by
      unfold plan
      rw [empty]
      rfl
    rw [refused]
    simp [empty, eq_comm]
  · have not_empty : ¬ job.scans.isEmpty := by rwa [List.isEmpty_iff]
    cases hlevel : job.settings.logLevel .none with
    | error g =>
      have failed : (outcome (plan c job authorizations schedule) s).1 = .error g := by
        unfold plan
        rw [if_neg not_empty, hlevel]
        rfl
      rw [failed]
      simp [empty]
    | ok level =>
      cases hsize : job.settings.hostBookSize .none with
      | error g =>
        have failed : (outcome (plan c job authorizations schedule) s).1 = .error g := by
          unfold plan
          rw [if_neg not_empty, hlevel, hsize]
          rfl
        rw [failed]
        simp [empty]
      | ok found =>
        obtain ⟨v, size⟩ := found
        -- once the settings are read only the tables can fail, and the level of the log is restored
        have tables : (outcome (plan c job authorizations schedule) s).1 = .error f ↔
            (outcome (planTables c job authorizations size job.scans schedule)
              { s with level := level.getD s.level }).1 = .error f := by
          rw [outcome_plan empty hlevel hsize, Step.outcome_atLevel, outcome_bind]
          rcases outcome (planTables c job authorizations size job.scans schedule)
            { s with level := level.getD s.level } with ⟨g | splits, s₁⟩
          · constructor <;> (intro h; cases h; rfl)
          · constructor <;> (intro h; cases h)
        rw [tables]
        simp [empty]

/-- Planning gives the splits of all tables of the job, each table planned in its turn, or it fails;
and a failure that is not one of planning is that of a size of the host book that does not
convert. -/
theorem plan_fails_otherwise_iff (c : Collaborators ω) (job : Job) (authorizations : List Json)
    (schedule : Schedule ω) (s : Session ω) :
    (∀ p, (outcome (plan c job authorizations schedule) s).1 = .ok p →
      ∃ size sss, p.splits = sss.flatten ∧ List.Forall₂ (fun e ss => ∃ schedule s rest s',
        outcome (planTable c job authorizations size e.1 e.2 schedule) s = (.ok (ss, rest), s'))
          job.scans sss) ∧
    ∀ f, (outcome (plan c job authorizations schedule) s).1 = .error f ∧ f.isPlanning = false ↔
      job.scans ≠ [] ∧ (∃ level, job.settings.logLevel .none = .ok level) ∧
        ∃ v, job.settings.get? Setting.hostBookSize.key = some v ∧
          v.convert .integer = .error f := by
  refine ⟨fun p h => ?_, fun f => ?_⟩
  · obtain ⟨size, level, s₁, planned⟩ := plan_eq_ok (Prod.ext h rfl)
    obtain ⟨sss, flat, each⟩ := planTables_eq_ok (fun _ _ => True)
      (fun _ _ _ _ _ _ _ _ _ => trivial) trivial planned
    refine ⟨size, sss, flat, each.imp fun e ss turn => ?_⟩
    obtain ⟨schedule, s, rest, s', -, run⟩ := turn
    exact ⟨schedule, s, rest, s', run⟩
  · rw [plan_eq_error_iff]
    constructor
    · -- every other origin of a failure gives one of planning
      rintro ⟨⟨-, rfl⟩ | ⟨tables, hlevel | ⟨level, hlevel, hsize | ⟨v, size, -, h⟩⟩⟩, other⟩
      · cases other
      · rw [Settings.isPlanning_of_logLevel hlevel] at other
        cases other
      · rcases Settings.hostBookSize_eq_error.mp hsize with bad | ⟨_, _, -, -, -, rfl⟩
        · exact ⟨tables, ⟨level, hlevel⟩, bad⟩
        · cases other
      · rw [isPlanning_of_planTables (Prod.ext h rfl)] at other
        cases other
    · rintro ⟨tables, ⟨level, hlevel⟩, v, hv, bad⟩
      have unread := Settings.hostBookSize_eq_error.mpr (.inl ⟨v, hv, bad⟩)
      exact ⟨.inr ⟨tables, .inr ⟨level, hlevel, .inl unread⟩⟩, Value.isPlanning_of_convert bad⟩

/-- A job whose size of the host book is no number. -/
def manyJob : Job :=
  ⟨[(.text "t", .plain)], [(Setting.hostBookSize.key, .plain (.text "many"))]⟩

/-- The job is read without complaint, and the failure to convert the size leaves planning as it
is. -/
theorem plan_many :
    Job.ofRecords [(.text "t", .object [])] manyJob.settings = .ok manyJob ∧
      (outcome (plan Registry.collaborators manyJob [] [])
        (Registry.staleSession .halfHosted)).1 = .error (.invalid (.noInteger "many")) ∧
      (Failure.invalid (.noInteger "many")).isPlanning = false :=
  ⟨rfl, rfl, rfl⟩

end Planning

end ScanPlanner
