import ScanPlanner.Proofs.Views

/-!
# Whose settings count

A job has settings, and each of its tables may have some of its own. When the scans of a job are
read, what a table sets wins over what the job sets (`Settings.value_merge`); a null that a table
gives in the place of a value hides what the job sets, though it sets nothing itself. The length of
pauses is read later, and from the settings of the job alone (`Planning.settings_of_plan`).
-/

namespace ScanPlanner

/-! ## Merged settings -/

namespace Settings

/-- The value that a table's settings give to a setting, if they give one, or else the value that
the job's settings give to it, or else the setting's own. -/
def ruling (own given : Settings) (s : Setting) : Result Value :=
  match own.get? s.key with
  | some v => if v.isSome then v.convert s.kind else given.value s .none
  | none => given.value s .none

/-- The value as it is read after a table's settings have been merged with the job's. A null of the
table's counts as set, and gives the value that holds when nothing is set. -/
def merged (own given : Settings) (s : Setting) : Result Value :=
  if own.get? s.key = some .none then .ok s.fallback else ruling own given s

variable (given own : Settings) (s : Setting)

/-- A table's own settings come before those of the job, and these before the defaults. A setting
that the table has but leaves empty hides the job's all the same. -/
theorem value_merge : (given.merge own).value s .none = merged (Ledger.ofPairs own) given s := by
  have found : (given.merge own).get? s.key =
      ((Ledger.ofPairs own).get? s.key).or (given.get? s.key) :=
    Ledger.get?_foldl_put given own s.key
  unfold merged ruling value
  rw [found]
  cases hv : (Ledger.ofPairs own).get? s.key with
  | none => rfl
  | some v =>
    rw [Option.some_or]
    -- a setting of the table that is there but empty gives its own value, not the job's
    by_cases none : v = .none
    · rw [none]
      rfl
    · have there : v.isSome = true := by
        unfold Value.isSome
        simpa using none
      rw [if_neg (fun e => none (Option.some.inj e))]
      dsimp only
      rw [if_pos there, if_pos there]

variable {given}

/-- A flag that was read is the value of its setting, whichever of the three gave it. -/
theorem value_of_flag {b : Bool} (h : given.flag s = .ok b) :
    given.value s .none = .ok (.plain (.bool b)) := by
  unfold flag at h
  obtain ⟨v, hv, h⟩ := Result.bind_eq_ok.mp h
  rw [hv]
  split at h
  · cases h
    rfl
  · cases h

/-- A grouping that was read is the value of its setting. -/
theorem value_of_grouping {g : Grouping} (h : given.grouping = .ok g) :
    given.value .grouping .none = .ok (.choice (.grouping g)) := by
  unfold grouping at h
  obtain ⟨v, hv, h⟩ := Result.bind_eq_ok.mp h
  rw [hv]
  split at h
  · cases h
    rfl
  · cases h

end Settings

/-! ## Scans -/

namespace TableScan

/-- The settings that the record of a table gives. -/
def ownSettings (v : Json) : Result Settings := do
  let v := if v.isPresent then v else .object []
  return Ledger.ofPairs (← Settings.ofJson (← v.memberOrNull "options"))

/-- How a table is scanned is what a choice of values says. These are the settings that the record
of a scan is made of. -/
structure SetBy (value : Setting → Result Value) (scan : TableScan) : Prop where
  adjust : value .adjust = .ok (.plain (.bool scan.adjust))
  batch : value .batch = .ok (.plain (.bool scan.batch))
  offline : value .offline = .ok (.plain (.bool scan.offline))
  isolated : value .isolated = .ok (.plain (.bool scan.isolated))
  localIterators : value .localIterators = .ok (.plain (.bool scan.localIterators))
  grouping : value .grouping = .ok (.choice (.grouping scan.grouping))

/-- A scan that was made of settings has been set by their values, one setting for each mode. -/
theorem setBy_of_ofSettings {given : Settings} {ranges : List KeyRange} {columns : List Column}
    {iterators : List IteratorSetting} {scan : TableScan}
    (h : ofSettings given ranges columns iterators = .ok scan) :
    scan.SetBy fun s => given.value s .none := by
  unfold ofSettings at h
  obtain ⟨adjust, hadjust, h⟩ := Result.bind_eq_ok.mp h
  obtain ⟨batch, hbatch, h⟩ := Result.bind_eq_ok.mp h
  obtain ⟨offline, hoffline, h⟩ := Result.bind_eq_ok.mp h
  obtain ⟨isolated, hisolated, h⟩ := Result.bind_eq_ok.mp h
  obtain ⟨localIterators, hlocal, h⟩ := Result.bind_eq_ok.mp h
  obtain ⟨grouping, hgrouping, h⟩ := Result.bind_eq_ok.mp h
  cases h
  exact {
    adjust := Settings.value_of_flag _ hadjust
    batch := Settings.value_of_flag _ hbatch
    offline := Settings.value_of_flag _ hoffline
    isolated := Settings.value_of_flag _ hisolated
    localIterators := Settings.value_of_flag _ hlocal
    grouping := Settings.value_of_grouping hgrouping }

/-- A scan that was read from a record has been set by the settings of the record together with
those of the job. -/
theorem exists_ownSettings_of_ofJson {given : Settings} {v : Json} {scan : TableScan}
    (h : ofJson given v = .ok scan) :
    ∃ own, ownSettings v = .ok own ∧ scan.SetBy (Settings.merged own given) := by
  unfold ofJson at h
  obtain ⟨member, hmember, h⟩ := Result.bind_eq_ok.mp h
  obtain ⟨own, hown, h⟩ := Result.bind_eq_ok.mp h
  obtain ⟨_, -, h⟩ := Result.bind_eq_ok.mp h
  obtain ⟨_, -, h⟩ := Result.bind_eq_ok.mp h
  obtain ⟨_, -, h⟩ := Result.bind_eq_ok.mp h
  obtain ⟨_, -, h⟩ := Result.bind_eq_ok.mp h
  obtain ⟨_, -, h⟩ := Result.bind_eq_ok.mp h
  obtain ⟨_, -, h⟩ := Result.bind_eq_ok.mp h
  -- the scan is read from what the merged settings say
  have set := setBy_of_ofSettings h
  rw [show (fun s => (given.merge own).value s .none) = _ from
    funext (Settings.value_merge given own)] at set
  refine ⟨Ledger.ofPairs own, ?_, set⟩
  exact Result.bind_eq_ok.mpr ⟨member, hmember, Result.bind_eq_ok.mpr ⟨own, hown, rfl⟩⟩

end TableScan

/-! ## Jobs -/

namespace Planning

/-- The pauses of a job are as long as its settings say. Both numbers have to be natural ones; no
setting of a table is asked. -/
theorem exists_of_backoff {given : Settings} {b : Backoff} (h : backoff given = .ok b) :
    ∃ least jitter : Nat, given.number .backoffLeast = .ok least ∧
      given.number .backoffJitter = .ok jitter ∧ b = ⟨least, jitter⟩ := by
  obtain ⟨least, hleast, h⟩ := Result.bind_eq_ok.mp h
  obtain ⟨jitter, hjitter, h⟩ := Result.bind_eq_ok.mp h
  unfold Backoff.make at h
  by_cases negative : least < 0 ∨ jitter < 0
  · rw [if_pos negative] at h
    cases h
  · rw [if_neg negative] at h
    cases h
    refine ⟨least.toNat, jitter.toNat, ?_, ?_, rfl⟩
    · rw [hleast, Int.toNat_of_nonneg (by omega)]
    · rw [hjitter, Int.toNat_of_nonneg (by omega)]

/-- What a table sets wins over what the job sets, for each setting that the scan of the table is
made of; only a null hides what the job sets. Pauses keep to the settings of the job, whatever the
tables set. -/
theorem settings_of_plan {tables : Ledger TableName Json} {settings : Settings} {job : Job}
    (read : Job.ofRecords tables settings = .ok job) :
    List.Forall₂ (fun table entry => entry.1 = table.1 ∧
        ∃ own, TableScan.ownSettings table.2 = .ok own ∧ entry.2.SetBy fun s =>
          if own.get? s.key = some .none then .ok s.fallback else Settings.ruling own settings s)
      tables job.scans ∧
    ∀ {ω : Type} (c : Collaborators ω) (authorizations : List Json) (schedule : Schedule ω)
      (s : Session ω), ∃ pauses,
        (outcome (plan c job authorizations schedule) s).2.pauses = s.pauses ++ pauses ∧
        ∀ millis ∈ pauses, ∃ least jitter : Nat, settings.number .backoffLeast = .ok least ∧
          settings.number .backoffJitter = .ok jitter ∧ least ≤ millis ∧
          (millis < least + jitter ∨ jitter = 0 ∧ millis = least) := by
  obtain ⟨scans, hscans, read⟩ := Result.bind_eq_ok.mp read
  cases read
  constructor
  · refine (Result.forall₂_of_mapM hscans).imp fun table entry scanned => ?_
    obtain ⟨scan, hscan, scanned⟩ := Result.bind_eq_ok.mp scanned
    cases scanned
    exact ⟨rfl, TableScan.exists_ownSettings_of_ofJson hscan⟩
  · intro ω c authorizations schedule s
    -- of all that is recorded in a session only the pauses are looked at, and each was drawn by the
    -- backoff of the job
    refine shows_plan (v := View.pauses) c ⟨scans, settings⟩ authorizations ?_ ?_ schedule s
    · intro host level a seen
      cases seen
    · intro b hb millis allowed a seen
      obtain ⟨least, jitter, hleast, hjitter, rfl⟩ := exists_of_backoff hb
      cases seen
      exact ⟨least, jitter, hleast, hjitter, allowed⟩

/-- The record of a table that asks for pauses of half a second. -/
def patientRecord : Json :=
  .object [("options", .object
    [(Setting.backoffLeast.key, .int 500), (Setting.backoffJitter.key, .int 0)])]

/-- The job that scans the table, and sets nothing itself. -/
def patientJob : Job := ⟨[(.text "t", .plain)], []⟩

/-- The plan for the table, whose upper tablet finds a place in the first pause. -/
def patientRun : Result Plan × Session (Cached Registry) :=
  outcome (plan Registry.collaborators patientJob []
      ([Registry.moveUpperHalf (some (.text "b:1"))].map Locator.behind))
    (Registry.staleSession .halfHosted)

/-- Pauses are as long as they are for any job that sets nothing, although the table asks for longer
ones. -/
theorem settings_of_patientJob :
    Job.ofRecords [(.text "t", patientRecord)] [] = .ok patientJob ∧
      ∀ millis ∈ patientRun.2.pauses, 100 ≤ millis ∧ millis < 200 := by
  have read : Job.ofRecords [(.text "t", patientRecord)] [] = .ok patientJob := rfl
  refine ⟨read, fun millis made => ?_⟩
  obtain ⟨pauses, run, bounds⟩ := (settings_of_plan read).2 Registry.collaborators []
    ([Registry.moveUpperHalf (some (.text "b:1"))].map Locator.behind)
    (Registry.staleSession .halfHosted)
  have run : patientRun.2.pauses = pauses := run
  obtain ⟨least, jitter, hleast, hjitter, bound⟩ := bounds millis (run ▸ made)
  have hleast : (Except.ok 100 : Result Int) = .ok least := hleast
  have hjitter : (Except.ok 100 : Result Int) = .ok jitter := hjitter
  have hleast : (100 : Int) = least := Except.ok.inj hleast
  have hjitter : (100 : Int) = jitter := Except.ok.inj hjitter
  omega

/-- The table asks for pauses of half a second, and there is a shorter one. -/
theorem impatient_patientJob :
    Job.ofRecords [(.text "t", patientRecord)] [] = .ok patientJob ∧
      (∃ own, TableScan.ownSettings patientRecord = .ok own ∧
        Settings.ruling own [] .backoffLeast = .ok (.plain (.int 500)) ∧
        Settings.ruling own [] .backoffJitter = .ok (.plain (.int 0))) ∧
      ∃ millis ∈ patientRun.2.pauses, millis < 500 := by
  refine ⟨rfl, ⟨_, rfl, rfl, rfl⟩, 107, ?_, by decide⟩
  decide +kernel

end Planning

end ScanPlanner
