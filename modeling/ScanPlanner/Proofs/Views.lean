import ScanPlanner.Proofs.Growth
import ScanPlanner.Proofs.Planning

/-!
# Views of a trace

A `View` picks what is seen of a trace: lookups or pauses, say. Planning asks and notes many things,
but it looks hosts up only while it makes splits, and it pauses only for as long as the job asks it
to; so whatever a view shows of planning is one of these (`Planning.shows_plan`).
-/

namespace ScanPlanner

variable {ω α β γ : Type}

/-- What is seen of the events of a trace. Questions, draws and notes are not seen, so that the
steps that are only these can be passed over. -/
structure View (γ : Type) where
  see : Event → Option γ
  asked : ∀ question about, see (.asked question about) = none
  drew : ∀ bound, see (.drew bound) = none
  logged : ∀ note, see (.logged note) = none

/-- What is seen of a session. -/
def Session.seen (v : View γ) (s : Session ω) : List γ := s.trace.filterMap v.see

namespace View

/-- Of pauses their lengths are seen. -/
def pauses : View Nat := ⟨Event.pause?, fun _ _ => rfl, fun _ => rfl, fun _ => rfl⟩

variable {v : View γ}

theorem seen_record_of_none {e : Event} (h : v.see e = none) (s : Session ω) :
    (s.record e).seen v = s.seen v := by
  unfold Session.seen Session.record
  simp [h]

/-- What is seen has happened apart from the log. -/
theorem seen_eq (s : Session ω) : s.seen v = s.happened.filterMap v.see := by
  unfold Session.seen Session.happened
  rw [List.filterMap_filter]
  refine List.filterMap_congr fun e _ => ?_
  cases e with
  | logged n => exact v.logged n
  | _ => rfl

theorem seen_log (s : Session ω) (notes : List Note) : (s.log notes).seen v = s.seen v := by
  rw [seen_eq, seen_eq, Session.happened_log]

end View

namespace Step

variable {v : View γ} {A : γ → Prop} {x : Step ω α} {g : α → Step ω β}

/-- What is seen of the step is a list with the property, and it is added to what was seen before.
One step after another sees one list after the other. -/
def Adds (v : View γ) (P : List γ → Prop) (x : Step ω α) : Prop :=
  ∀ s, ∃ more, (outcome x s).2.seen v = s.seen v ++ more ∧ P more

/-- Of what happens in the step only such things are seen. -/
def Shows (v : View γ) (A : γ → Prop) (x : Step ω α) : Prop :=
  Adds v (fun more => ∀ a ∈ more, A a) x

theorem Shows.seen_eq (h : Shows v (fun _ => False) x) (s : Session ω) :
    (outcome x s).2.seen v = s.seen v := by
  obtain ⟨more, seen, none⟩ := h s
  rw [seen, List.eq_nil_iff_forall_not_mem.mpr none, List.append_nil]

/-- Behind a step that shows nothing the rest is what is seen. If that step fails nothing is seen,
and this has to be allowed. -/
theorem adds_bind_of_ok {P : List γ → Prop} (hx : Shows v (fun _ => False) x) (nil : P [])
    (hg : ∀ s a s', outcome x s = (.ok a, s') → Adds v P (g a)) : Adds v P (x >>= g) := by
  intro s
  have first := hx.seen_eq s
  rw [outcome_bind]
  rcases hrun : outcome x s with ⟨f | a, s'⟩
  · rw [hrun] at first
    exact ⟨[], first.trans (List.append_nil _).symm, nil⟩
  · rw [hrun] at first
    rw [← show s'.seen v = s.seen v from first]
    exact hg s a s' hrun s'

theorem adds_bind {P : List γ → Prop} (hx : Shows v (fun _ => False) x) (nil : P [])
    (hg : ∀ a, Adds v P (g a)) : Adds v P (x >>= g) :=
  adds_bind_of_ok hx nil fun _ a _ _ => hg a

/-- To make something of the value shows nothing more. -/
theorem Adds.map {P : List γ → Prop} (hx : Adds v P x) (h : α → β) :
    Adds v P (x >>= fun a => pure (h a)) := by
  intro s
  rw [outcome_bind_pure]
  exact hx s

/-- A failure that is given the name of its table shows nothing more. -/
theorem Adds.forTable {P : List γ → Prop} (table : TableName) (hx : Adds v P x) :
    Adds v P (forTable table x) := by
  intro s
  rw [session_forTable]
  exact hx s

theorem Adds.atLevel {P : List γ → Prop} (level : Option Int) (hx : Adds v P x) :
    Adds v P (atLevel level x) :=
  fun s => hx { s with level := level.getD s.level }

theorem shows_of_seen_eq (h : ∀ s, (outcome x s).2.seen v = s.seen v) : Shows v A x :=
  fun s => ⟨[], (h s).trans (List.append_nil _).symm, by simp⟩

/-- What a composition shows is what its first part shows and, if there is a value, what the second
part shows after it. -/
theorem shows_bind_of_ok (hx : Shows v A x)
    (hg : ∀ s a s', outcome x s = (.ok a, s') → Shows v A (g a)) : Shows v A (x >>= g) := by
  intro s
  obtain ⟨first, seen₁, each₁⟩ := hx s
  rw [outcome_bind]
  rcases hrun : outcome x s with ⟨f | a, s'⟩
  · rw [hrun] at seen₁
    exact ⟨first, seen₁, each₁⟩
  · rw [hrun] at seen₁
    obtain ⟨second, seen₂, each₂⟩ := hg s a s' hrun s'
    refine ⟨first ++ second, ?_, fun b hb => ?_⟩
    · show (outcome (g a) s').2.seen v = _
      rw [seen₂, show s'.seen v = _ from seen₁, List.append_assoc]
    · exact (List.mem_append.mp hb).elim (each₁ b) (each₂ b)

theorem Shows.bind (hx : Shows v A x) (hg : ∀ a, Shows v A (g a)) : Shows v A (x >>= g) :=
  shows_bind_of_ok hx fun _ a _ _ => hg a

theorem shows_pure (a : α) : Shows v A (pure a : Step ω α) := shows_of_seen_eq fun _ => rfl

theorem shows_throw (f : Failure) : Shows v A (throw f : Step ω α) := shows_of_seen_eq fun _ => rfl

theorem shows_throw_bind (f : Failure) : Shows v A (throw f >>= g) :=
  shows_of_seen_eq fun _ => rfl

/-- A step is related with itself if only such things are seen of it. -/
def showing (ω : Type) (v : View γ) (A : γ → Prop) : Congruence (Step ω) (Step ω) where
  Rel x _ := Shows v A x
  pure := shows_pure
  throw := shows_throw
  bind := Shows.bind

/-- A recorded event shows itself, if the view sees it at all. -/
theorem shows_record {e : Event} (h : ∀ a, v.see e = some a → A a) :
    Shows v A (record e : Step ω Unit) := by
  intro s
  refine ⟨(v.see e).toList, ?_, fun a ha => h a (Option.mem_toList.mp ha)⟩
  show (s.record e).seen v = _
  unfold Session.seen Session.record
  rw [List.filterMap_append]
  cases hv : v.see e <;> simp [hv]

theorem shows_note (severity : Severity) (source : Source) (text : String) :
    Shows v A (note severity source text : Step ω Unit) :=
  shows_of_seen_eq fun s => View.seen_log s _

theorem shows_ofResult (r : Result α) : Shows v A (ofResult r : Step ω α) := by
  cases r with
  | ok a => exact shows_pure a
  | error f => exact shows_throw f

/-- Of a collaborator only the notes are in the trace. -/
theorem shows_perform (effect : Effect ω α) : Shows v A (perform effect) := by
  refine shows_of_seen_eq fun s => ?_
  rw [outcome_perform]
  exact View.seen_log { s with world := (outcome effect ⟨s.world, []⟩).2.world } _

theorem shows_ask (q : Question) (about : TableId) (effect : Effect ω α) :
    Shows v A (ask q about effect) :=
  (shows_record fun a ha => by rw [v.asked] at ha; cases ha).bind fun _ => shows_perform effect

/-! ## Locating -/

variable (c : Collaborators ω)

/-- An online attempt is made of questions and notes, so it shows nothing. -/
theorem shows_attemptOnline (id : TableId) (ranges : List KeyRange) :
    Shows v A (Locating.attemptOnline c id ranges) := by
  show (showing ω v A).Rel (Locating.attemptOnline c id ranges) (Locating.attemptOnline c id ranges)
  exact (showing ω v A).attemptOnline shows_note id ranges (shows_ask _ _ _) (shows_ask _ _ _)
    (shows_ask _ _ _) (shows_ask _ _ _)

/-- An offline attempt is a question and a note, so it shows nothing. -/
theorem shows_attemptOffline (id : TableId) (ranges : List KeyRange) :
    Shows v A (Locating.attemptOffline c id ranges) := by
  show (showing ω v A).Rel (Locating.attemptOffline c id ranges)
    (Locating.attemptOffline c id ranges)
  exact (showing ω v A).attemptOffline shows_note id ranges (shows_ask _ _ _)

theorem shows_draw (bound : Nat) : Shows v A (draw c bound) := by
  refine shows_of_seen_eq fun s => ?_
  exact View.seen_record_of_none (v.drew bound) s

/-- To choose the length of a pause shows nothing, with or without jitter. -/
theorem shows_delay (b : Backoff) : Shows v A (b.delay c) := by
  unfold Backoff.delay
  by_cases jitter : b.jitter > 0
  · rw [if_pos jitter]
    exact (shows_draw c b.jitter).bind fun _ => shows_pure _
  · rw [if_neg jitter]
    exact shows_pure _

end Step

/-- A pause may be so long: the least time, and less than the random part on top of it. -/
def Backoff.Allows (b : Backoff) (millis : Nat) : Prop :=
  b.least ≤ millis ∧ (millis < b.least + b.jitter ∨ b.jitter = 0 ∧ millis = b.least)

/-- The length that is chosen for a pause is one that the backoff allows. -/
theorem Backoff.allows_of_delay {b : Backoff} {c : Collaborators ω} {millis : Nat}
    {s s' : Session ω} (h : outcome (b.delay c) s = (.ok millis, s')) : b.Allows millis := by
  obtain ⟨_, run, -⟩ := outcome_delay (b := b) c s
  rw [h] at run
  obtain rfl : millis = b.delayAt c.numbers s.drawn := by injection run with e; injection e
  exact ⟨b.least_le_delayAt _ _, b.delayAt_lt _ _⟩

namespace Step

variable {v : View γ} {A : γ → Prop} (c : Collaborators ω)

section

variable {b : Backoff}
  (paused : ∀ millis, b.Allows millis → ∀ a, v.see (.paused millis) = some a → A a)
include paused

/-- A pause shows its own length, once it is known that the clock takes it. A pause that is too long
fails before it is recorded. -/
theorem shows_pause (count : Nat) (meanwhile : Option (Effect ω Unit)) :
    Shows v A (b.pause c count meanwhile) := by
  unfold Backoff.pause
  refine shows_bind_of_ok (shows_delay c b) fun s millis s' ran => ?_
  refine (shows_note _ _ _).bind fun _ => ?_
  by_cases long : (Backoff.seconds? millis).isNone = true
  · rw [if_pos long]
    exact shows_throw_bind _
  · rw [if_neg long]
    refine (shows_record (paused millis (Backoff.allows_of_delay ran))).bind fun _ => ?_
    cases meanwhile with
    | none => exact shows_throw_bind _
    | some effect => exact (shows_perform effect).bind fun _ => shows_pure millis

/-- Attempts and pauses in turn show the lengths of their pauses and nothing else. -/
theorem shows_retry {attempt : Step ω (Option Binning)} (h : Shows v A attempt) (count : Nat)
    (schedule : Schedule ω) : Shows v A (Locating.retry c b attempt count schedule) := by
  -- induction on the schedule: an attempt, and a pause with the rest of the schedule after it
  induction schedule generalizing count with
  | nil =>
    refine h.bind fun found => ?_
    cases found with
    | some binning => exact shows_pure _
    | none => exact (shows_pause c paused count none).bind fun _ => shows_throw _
  | cons meanwhile rest ih =>
    refine h.bind fun found => ?_
    cases found with
    | some binning => exact shows_pure _
    | none => exact (shows_pause c paused count (some meanwhile)).bind fun _ => ih (count + 1)

/-- To locate ranges, online or offline, shows the lengths of pauses and nothing else. -/
theorem shows_locate (id : TableId) (ranges : List KeyRange) (offline : Bool)
    (schedule : Schedule ω) : Shows v A (Locating.locate c b id ranges offline schedule) := by
  cases offline with
  | true => exact shows_retry c paused (shows_attemptOffline c id ranges) 1 schedule
  | false => exact shows_retry c paused (shows_attemptOnline c id ranges) 1 schedule

end

/-! ## Making splits -/

section

variable (lookedUp : ∀ host level a, v.see (.lookedUp host level) = some a → A a)
include lookedUp

/-- To look a host up shows that lookup at most; a host that is in the book shows nothing. -/
theorem shows_lookUp (host : String) :
    (showing ω v A).pointwise.Rel (HostBook.lookUp c host) (HostBook.lookUp c host) := by
  have lookUpAt (level : Int) :
      (showing ω v A).pointwise.Rel (Naming.lookUpAt c host level) (Naming.lookUpAt c host level) :=
    (showing ω v A).pointwise_lookUpAt shows_note (shows_perform _)
      (shows_record (lookedUp host level))
  intro book
  show Shows v A (get >>= fun session => (Naming.lookUpAt c host session.level).run book)
  exact (shows_of_seen_eq fun _ => rfl).bind fun session => lookUpAt session.level book

theorem shows_make (f : SplitFrame) (b : Binning) (scan : TableScan) (size : Int) :
    Shows v A (Splitting.make c f b scan size) := by
  show (showing ω v A).Rel (Splitting.make c f b scan size) (Splitting.make c f b scan size)
  exact (showing ω v A).make shows_note (shows_lookUp c lookedUp) f b scan size

end

end Step

/-! ## Planning -/

namespace Planning

variable {v : View γ} {A : γ → Prop} (c : Collaborators ω) (job : Job) (authorizations : List Json)
  (size : Int) (lookedUp : ∀ host level a, v.see (.lookedUp host level) = some a → A a)
  (paused : ∀ b, backoff job.settings = .ok b → ∀ millis, b.Allows millis →
    ∀ a, v.see (.paused millis) = some a → A a)
include lookedUp paused

/-- Planning a table shows the pauses that its location takes and the lookups that its splits
take. -/
theorem shows_planTable (table : TableName) (scan : TableScan) (schedule : Schedule ω) :
    Step.Shows v A (planTable c job authorizations size table scan schedule) := by
  rw [planTable_eq]
  refine (Step.shows_ofResult _).bind fun _ => Step.Adds.forTable table ?_
  refine (Step.shows_ask _ _ _).bind fun id => ?_
  refine (Step.shows_ofResult _).bind fun ranges => ?_
  refine (Step.shows_note _ _ _).bind fun _ => ?_
  -- the backoff is the one that the settings of the job give, which is what `paused` speaks of
  refine Step.shows_bind_of_ok (Step.shows_ofResult _) fun s b s' ran => ?_
  rw [Step.outcome_ofResult, Prod.mk.injEq] at ran
  refine (Step.shows_locate c (paused b ran.1) id ranges scan.offline schedule).bind fun found => ?_
  exact (Step.shows_make c lookedUp _ found.1 scan size).bind fun _ => Step.shows_pure _

/-- Planning the tables one after the other shows what planning each of them shows. -/
theorem shows_planTables (scans : List (TableName × TableScan)) (schedule : Schedule ω) :
    Step.Shows v A (planTables c job authorizations size scans schedule) := by
  induction scans generalizing schedule with
  | nil => exact Step.shows_pure _
  | cons entry scans ih =>
    refine (shows_planTable c job authorizations size lookedUp paused _ _ _).bind fun planned => ?_
    exact (ih planned.2).bind fun _ => Step.shows_pure _

/-- Whatever is seen of planning a job is a lookup, or a pause for as long as the job asks. What the
view sees of other events does not come up. -/
theorem shows_plan (schedule : Schedule ω) :
    Step.Shows v A (plan c job authorizations schedule) := by
  unfold plan
  by_cases none : job.scans.isEmpty = true
  · rw [if_pos none]
    exact Step.shows_throw _
  · rw [if_neg none]
    refine (Step.shows_ofResult _).bind fun level => ?_
    refine (Step.shows_ofResult _).bind fun found => Step.Adds.atLevel level ?_
    refine (shows_planTables c job authorizations found.2 lookedUp paused job.scans schedule).bind
      fun splits => ?_
    exact (Step.shows_note _ _ _).bind fun _ => Step.shows_pure _

end Planning

end ScanPlanner
