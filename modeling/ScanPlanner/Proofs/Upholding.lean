import ScanPlanner.Proofs.Comparable
import ScanPlanner.Proofs.Congruence
import ScanPlanner.Proofs.Planning

/-!
# What planning upholds

Collaborators may keep an invariant of their world, and as long as it holds hand out nothing but
rows that can be compared: of the two ends of each it can be told which comes first
(`Collaborators.Comparable`). Then all of planning upholds the invariant,
and the splits that it ends with can be written and have the settings of their scan
(`Planning.upholds_plan`). A backend over a catalog is such a one if the catalog is
(`Collaborators.comparable_ofCatalog`), whatever its cache has taken in before.
-/

namespace ScanPlanner

/-- However `x` ends, the invariant still holds; a value that it ends with has the property. -/
def Upholds {σ α : Type} (I : σ → Prop) (x : ExceptT Failure (StateM σ) α) (Q : α → Prop) : Prop :=
  ∀ s, I s → I (outcome x s).2 ∧ ∀ a, (outcome x s).1 = .ok a → Q a

variable {ω α β : Type}

namespace Upholds

variable {σ : Type} {I : σ → Prop} {x : ExceptT Failure (StateM σ) α}
  {g : α → ExceptT Failure (StateM σ) β} {P Q : α → Prop} {R : β → Prop}

/-- A value that has the property may be given without touching the state. -/
theorem pure {a : α} (h : Q a) : Upholds I (Pure.pure a) Q := by
  intro s hI
  refine ⟨hI, fun a' e => ?_⟩
  cases e
  exact h

theorem throw (f : Failure) : Upholds I (MonadExcept.throw f) Q := fun _ hI => ⟨hI, nofun⟩

/-- The second part begins in a state where the invariant holds, with a value that has its
property. -/
theorem bind (hx : Upholds I x P) (hg : ∀ a, P a → Upholds I (g a) R) : Upholds I (x >>= g) R := by
  intro s hI
  obtain ⟨kept, value⟩ := hx s hI
  rw [outcome_bind]
  rcases hrun : outcome x s with ⟨f | a, s'⟩
  · rw [hrun] at kept
    exact ⟨kept, nofun⟩
  · rw [hrun] at kept value
    exact hg a (value a rfl) s' kept

/-- What would come after a failure does not matter. -/
theorem throw_bind (f : Failure) : Upholds I (MonadExcept.throw f >>= g) R :=
  (throw (Q := fun _ => False) f).bind fun _ never => never.elim

/-- A failure that is caught has upheld the invariant as well, since it is asked for at every end of
a step. -/
theorem tryCatch {h : Failure → ExceptT Failure (StateM σ) α} (hx : Upholds I x Q)
    (hh : ∀ f, Upholds I (h f) Q) : Upholds I (MonadExcept.tryCatch x h) Q := by
  intro s hI
  obtain ⟨kept, value⟩ := hx s hI
  rw [outcome_tryCatch]
  rcases hrun : outcome x s with ⟨f | a, s'⟩
  · rw [hrun] at kept
    exact hh f s' kept
  · rw [hrun] at kept value
    exact ⟨kept, value⟩

theorem imp (hx : Upholds I x P) (h : ∀ a, P a → Q a) : Upholds I x Q := fun s hI =>
  ⟨(hx s hI).1, fun a e => h a ((hx s hI).2 a e)⟩

theorem any (hx : Upholds I x P) : Upholds I x fun _ => True := hx.imp fun _ _ => trivial

end Upholds

/-! ## Effects -/

namespace Effect

/-- The effect upholds an invariant of its world. -/
abbrev Upholds (J : ω → Prop) (x : Effect ω α) (Q : α → Prop) : Prop :=
  ScanPlanner.Upholds (fun s : Scene ω => J s.world) x Q

variable {J : ω → Prop}

/-- The world that is looked at is one of which the invariant holds. -/
theorem upholds_world : Effect.Upholds J (world : Effect ω ω) J := by
  intro s hJ
  refine ⟨hJ, fun w e => ?_⟩
  cases e
  exact hJ

theorem upholds_setWorld {w : ω} (h : J w) : Effect.Upholds J (setWorld w) fun _ => True :=
  fun _ _ => ⟨h, fun _ _ => trivial⟩

theorem upholds_note (n : Note) : Effect.Upholds J (note n) fun _ => True :=
  fun _ hJ => ⟨hJ, fun _ _ => trivial⟩

theorem upholds_ofResult (r : Result α) : Effect.Upholds J (ofResult r) fun a => r = .ok a := by
  intro s hJ
  rw [outcome_ofResult]
  exact ⟨hJ, fun _ e => e⟩

/-- What a question is answered comes from a world of which the invariant holds. -/
theorem upholds_ask (question : ω → Result α) :
    Effect.Upholds J (ask question) fun a => ∃ w, J w ∧ question w = .ok a := by
  intro s hJ
  rw [outcome_ask]
  exact ⟨hJ, fun _ e => ⟨s.world, hJ, e⟩⟩

end Effect

/-! ## Steps -/

namespace Step

/-- The step upholds an invariant of the world. -/
abbrev Upholds (I : ω → Prop) (x : Step ω α) (Q : α → Prop) : Prop :=
  ScanPlanner.Upholds (fun s : Session ω => I s.world) x Q

variable {I : ω → Prop} {Q : α → Prop}

theorem upholds_record (e : Event) : Step.Upholds I (record e) fun _ => True :=
  fun _ hI => ⟨hI, fun _ _ => trivial⟩

theorem upholds_note (severity : Severity) (source : Source) (text : String) :
    Step.Upholds I (note severity source text) fun _ => True :=
  fun _ hI => ⟨hI, fun _ _ => trivial⟩

theorem upholds_ofResult (r : Result α) : Step.Upholds I (ofResult r) fun a => r = .ok a := by
  intro s hI
  rw [outcome_ofResult]
  exact ⟨hI, fun _ e => e⟩

/-- A collaborator that upholds the invariant does so at work. -/
theorem upholds_perform {effect : Effect ω α} (h : Effect.Upholds I effect Q) :
    Step.Upholds I (perform effect) Q :=
  fun s hI => h ⟨s.world, []⟩ hI

theorem upholds_ask (q : Question) (about : TableId) {effect : Effect ω α}
    (h : Effect.Upholds I effect Q) : Step.Upholds I (ask q about effect) Q :=
  (upholds_record _).bind fun _ _ => upholds_perform h

theorem upholds_forTable (table : TableName) {x : Step ω α} (h : Step.Upholds I x Q) :
    Step.Upholds I (forTable table x) Q :=
  h.tryCatch fun _ => .throw _

theorem upholds_atLevel (level : Option Int) {x : Step ω α} (h : Step.Upholds I x Q) :
    Step.Upholds I (atLevel level x) Q :=
  fun s hI => h { s with level := level.getD s.level } hI

end Step

/-! ## Locating -/

/-- What the collaborators do upholds an invariant of the world, and ranges that can be compared are
assigned to extents that can be compared. -/
structure Collaborators.Comparable (c : Collaborators ω) (I : ω → Prop) : Prop where
  canonical : ∀ host, Effect.Upholds I (c.canonical host) fun _ => True
  tableId : ∀ name, Effect.Upholds I (c.backend.locator.tableId name) fun _ => True
  resolve : ∀ id {ranges : List KeyRange}, (∀ r ∈ ranges, r.Told) →
    Effect.Upholds I (c.backend.locator.resolve id ranges) fun l => l.binning.Comparable
  invalidate : ∀ id, Effect.Upholds I (c.backend.locator.invalidate id) fun _ => True
  tableExists : ∀ id, Effect.Upholds I (c.backend.locator.tableExists id) fun _ => True
  tableState : ∀ id, Effect.Upholds I (c.backend.locator.tableState id) fun _ => True
  binOffline : ∀ id {ranges : List KeyRange}, (∀ r ∈ ranges, r.Told) →
    Effect.Upholds I (c.backend.binOffline id ranges) fun found =>
      ∀ b, found = some b → b.Comparable

/-- The effects of a schedule uphold the invariant. What happens in a pause happens to the same
world that the attempts read. -/
def Schedule.Upholds (I : ω → Prop) (schedule : Schedule ω) : Prop :=
  ∀ effect ∈ schedule, Effect.Upholds I effect fun _ => True

section

variable {c : Collaborators ω} {I : ω → Prop} {b : Backoff} {id : TableId} {ranges : List KeyRange}

namespace Locating

/-- An online attempt upholds the invariant through all of its questions, and a binning that it
decides on is one whose extents can be compared. -/
theorem upholds_attemptOnline (hc : c.Comparable I) (told : ∀ r ∈ ranges, r.Told) :
    Step.Upholds I (attemptOnline c id ranges) fun found =>
      ∀ b, found = some b → b.Comparable := by
  unfold attemptOnline
  refine (Step.upholds_ask _ _ (hc.invalidate id)).bind fun _ _ => ?_
  refine (Step.upholds_ask _ _ (hc.resolve id told)).bind fun located comparable => ?_
  -- there is a binning only if the answer is complete
  by_cases complete : located.isComplete = true
  · rw [if_pos complete]
    refine .pure ?_
    rintro _ ⟨⟩
    exact comparable
  · rw [if_neg complete]
    refine (Step.upholds_ask _ _ (hc.tableExists id)).bind fun there _ => ?_
    by_cases gone : (!there) = true
    · rw [if_pos gone]
      exact .throw _
    · rw [if_neg gone]
      refine (Step.upholds_ask _ _ (hc.tableState id)).bind fun state _ => ?_
      by_cases offline : state = .offline
      · rw [if_pos offline]
        exact .throw _
      · rw [if_neg offline]
        exact (Step.upholds_note _ _ _).bind fun _ _ => .pure nofun

/-- An offline attempt upholds the invariant, and a binning that it gives assigns to rows that can
be compared. -/
theorem upholds_attemptOffline (hc : c.Comparable I) (told : ∀ r ∈ ranges, r.Told) :
    Step.Upholds I (attemptOffline c id ranges) fun found =>
      ∀ b, found = some b → b.Comparable := by
  unfold attemptOffline
  refine (Step.upholds_ask _ _ (hc.binOffline id told)).bind fun found comparable => ?_
  cases found with
  | some binning => exact .pure comparable
  | none => exact (Step.upholds_note _ _ _).bind fun _ _ => .pure nofun

end Locating

/-- To choose the length of a pause looks at no world, so any invariant of the world is upheld. -/
theorem Backoff.upholds_delay : Step.Upholds I (b.delay c) fun _ => True := by
  have drawn (bound : Nat) : Step.Upholds I (Step.draw c bound) fun _ => True :=
    fun _ hI => ⟨hI, fun _ _ => trivial⟩
  unfold delay
  by_cases jitter : b.jitter > 0
  · rw [if_pos jitter]
    exact (drawn b.jitter).bind fun _ _ => .pure trivial
  · rw [if_neg jitter]
    exact .pure trivial

/-- A pause upholds the invariant if the effect that happens in it does. -/
theorem Backoff.upholds_pause (count : Nat) {meanwhile : Option (Effect ω Unit)}
    (upheld : Schedule.Upholds I meanwhile.toList) :
    Step.Upholds I (b.pause c count meanwhile) fun _ => True := by
  unfold pause
  refine upholds_delay.bind fun millis _ => ?_
  refine (Step.upholds_note _ _ _).bind fun _ _ => ?_
  by_cases long : (seconds? millis).isNone = true
  · rw [if_pos long]
    exact .throw_bind _
  · rw [if_neg long]
    refine (Step.upholds_record _).bind fun _ _ => ?_
    cases meanwhile with
    | none => exact .throw_bind _
    | some effect =>
      have works := Step.upholds_perform (upheld effect (Option.mem_toList.mpr rfl))
      exact works.bind fun _ _ => .pure trivial

namespace Locating

/-- What each attempt upholds is upheld by attempts and pauses in turn. What is left of the schedule
upholds it too, for the tables that come later. -/
theorem upholds_retry {attempt : Step ω (Option Binning)} {Q : Binning → Prop}
    (h : Step.Upholds I attempt fun found => ∀ b, found = some b → Q b) (count : Nat)
    {schedule : Schedule ω} (upheld : schedule.Upholds I) :
    Step.Upholds I (retry c b attempt count schedule) fun found =>
      Q found.1 ∧ found.2.Upholds I := by
  -- induction on the schedule: an attempt, and a pause with the rest of the schedule after it
  induction schedule generalizing count with
  | nil =>
    refine h.bind fun found hfound => ?_
    cases found with
    | some binning => exact .pure ⟨hfound binning rfl, upheld⟩
    | none => exact (Backoff.upholds_pause count upheld).bind fun _ _ => .throw _
  | cons meanwhile rest ih =>
    obtain ⟨first, later⟩ := List.forall_mem_cons.mp upheld
    refine h.bind fun found hfound => ?_
    cases found with
    | some binning => exact .pure ⟨hfound binning rfl, upheld⟩
    | none =>
      have paused : Step.Upholds I (b.pause c count (some meanwhile)) fun _ => True :=
        Backoff.upholds_pause count (List.forall_mem_singleton.mpr first)
      exact paused.bind fun _ _ => ih (count + 1) later

/-- To locate ranges upholds the invariant, and the effects of the schedule that are left do so as
well. -/
theorem upholds_locate (hc : c.Comparable I) (told : ∀ r ∈ ranges, r.Told)
    (offline : Bool) {schedule : Schedule ω} (upheld : schedule.Upholds I) :
    Step.Upholds I (locate c b id ranges offline schedule) fun found =>
      found.1.Comparable ∧ found.2.Upholds I := by
  cases offline with
  | true => exact upholds_retry (upholds_attemptOffline hc told) 1 upheld
  | false => exact upholds_retry (upholds_attemptOnline hc told) 1 upheld

end Locating

end

/-! ## Making splits -/

namespace Splitting

variable {c : Collaborators ω} {I : ω → Prop}

/-- A step is related with itself if it upholds the invariant. -/
def upholding (I : ω → Prop) : Congruence (Step ω) (Step ω) where
  Rel x _ := Step.Upholds I x fun _ => True
  pure _ := .pure trivial
  throw f := .throw f
  bind hx hg := hx.bind fun a _ => hg a

/-- To look a host up upholds the invariant, because finding its name does. -/
theorem upholds_lookUp (hc : c.Comparable I) (host : String) :
    (upholding I).pointwise.Rel (HostBook.lookUp c host) (HostBook.lookUp c host) := by
  have lookUpAt (level : Int) : (upholding I).pointwise.Rel (Naming.lookUpAt c host level)
      (Naming.lookUpAt c host level) :=
    (upholding I).pointwise_lookUpAt Step.upholds_note (Step.upholds_perform (hc.canonical host))
      (Step.upholds_record _)
  have session : Step.Upholds I (get : Step ω (Session ω)) fun _ => True :=
    fun _ hI => ⟨hI, fun _ _ => trivial⟩
  intro book
  show Step.Upholds I (get >>= fun session => (Naming.lookUpAt c host session.level).run book) _
  exact session.bind fun session _ => lookUpAt session.level book

/-- To make splits upholds the invariant, and the splits are framed as those of their table are: by
its name, its id and the settings of its scan. -/
theorem upholds_make (hc : c.Comparable I) (f : SplitFrame) {b : Binning}
    (comparable : b.Comparable) (scan : TableScan) (size : Int) :
    Step.Upholds I (make c f b scan size) fun ss => ∀ s ∈ ss, f.Frames scan.batch s := by
  have kept : (upholding I).Rel (make c f b scan size) (make c f b scan size) :=
    (upholding I).make Step.upholds_note (upholds_lookUp hc) f b scan size
  intro s hI
  -- what the splits are like does not depend on the world, so it is known apart from the invariant
  refine ⟨(kept s hI).1, fun ss made => ?_⟩
  exact (make_eq_ok (ensures_frames c f comparable scan) trivial (Prod.ext made rfl)).1

end Splitting

/-! ## Planning -/

/-- The split has been planned for a scan of a table: it has recorded the modes, iterators and
columns of the scan and the authorizations of the job, and its ranges can be written. -/
structure Split.Planned (s : Split) (authorizations : List Json) (table : TableName)
    (scan : TableScan) : Prop where
  tableName : s.tableName = table
  snapshot : s.snapshot = .ofScan scan authorizations
  shape : s.work.isBatch = scan.batch
  ranges : ∀ r ∈ s.ranges, r.Told
  /-- The modes of the scan go together. -/
  checked : scan.check table = .ok ()

namespace Planning

variable {c : Collaborators ω} {I : ω → Prop} {job : Job} {authorizations : List Json}

/-- Planning a table upholds the invariant, and each of its splits has been planned for the scan.
The rest of the schedule is handed on with the same property. -/
theorem upholds_planTable (hc : c.Comparable I) {scan : TableScan}
    (told : ∀ r ∈ scan.ranges, r.Told) (size : Int) (table : TableName)
    {schedule : Schedule ω} (upheld : schedule.Upholds I) :
    Step.Upholds I (planTable c job authorizations size table scan schedule) fun planned =>
      (∀ s ∈ planned.1, s.Planned authorizations table scan) ∧ planned.2.Upholds I := by
  rw [planTable_eq]
  refine (Step.upholds_ofResult _).bind fun _ checked => Step.upholds_forTable table ?_
  refine (Step.upholds_ask _ _ (hc.tableId table)).bind fun id _ => ?_
  refine (Step.upholds_ofResult _).bind fun ranges normalized => ?_
  -- merging the ranges keeps their ends comparable
  have told := KeyRange.told_normalize told normalized
  refine (Step.upholds_note _ _ _).bind fun _ _ => ?_
  refine (Step.upholds_ofResult _).bind fun pauses _ => ?_
  refine (Locating.upholds_locate hc told scan.offline upheld).bind fun located hlocated => ?_
  refine (Splitting.upholds_make hc _ hlocated.1 scan size).bind fun ss framed => ?_
  refine .pure ⟨fun s hs => ?_, hlocated.2⟩
  have framed := framed s hs
  exact ⟨framed.tableName, framed.snapshot, framed.shape, framed.ranges, checked⟩

/-- Planning the tables one after the other upholds the invariant, and each split has been planned
for one of the scans. -/
theorem upholds_planTables (hc : c.Comparable I) (size : Int)
    {scans : List (TableName × TableScan)}
    (told : ∀ entry ∈ scans, ∀ r ∈ entry.2.ranges, r.Told) {schedule : Schedule ω}
    (upheld : schedule.Upholds I) :
    Step.Upholds I (planTables c job authorizations size scans schedule) fun ss =>
      ∀ s ∈ ss, ∃ entry ∈ scans, s.Planned authorizations entry.1 entry.2 := by
  -- induction on the tables, for any schedule to begin with
  induction scans generalizing schedule with
  | nil => exact .pure nofun
  | cons entry scans ih =>
    obtain ⟨first, rest⟩ := List.forall_mem_cons.mp told
    refine (upholds_planTable hc first size entry.1 upheld).bind fun planned hplanned => ?_
    refine (ih rest hplanned.2).bind fun later hlater => .pure fun s hs => ?_
    rcases List.mem_append.mp hs with hs | hs
    · exact ⟨entry, List.mem_cons_self, hplanned.1 s hs⟩
    · obtain ⟨e, he, planned⟩ := hlater s hs
      exact ⟨e, List.mem_cons_of_mem _ he, planned⟩

/-- Each split of a plan has been planned for a scan of the job. The ranges of the job can be told
if it was read from records. -/
theorem upholds_plan (hc : c.Comparable I)
    (told : ∀ entry ∈ job.scans, ∀ r ∈ entry.2.ranges, r.Told) {schedule : Schedule ω}
    (upheld : schedule.Upholds I) :
    Step.Upholds I (plan c job authorizations schedule) fun p =>
      ∀ s ∈ p.splits, ∃ entry ∈ job.scans, s.Planned authorizations entry.1 entry.2 := by
  unfold plan
  by_cases none : job.scans.isEmpty = true
  · rw [if_pos none]
    exact .throw _
  · rw [if_neg none]
    refine (Step.upholds_ofResult _).bind fun level _ => ?_
    refine (Step.upholds_ofResult _).bind fun found _ => Step.upholds_atLevel level ?_
    refine (upholds_planTables hc found.2 told upheld).bind fun ss planned => ?_
    exact (Step.upholds_note _ _ _).bind fun _ _ => .pure planned

end Planning

end ScanPlanner
