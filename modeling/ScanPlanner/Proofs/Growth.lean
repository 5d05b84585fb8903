import ScanPlanner.Proofs.Decisive
import ScanPlanner.Proofs.Likeness

/-!
# Traces that grow

What has happened in a session stays in its trace: planning a table adds events and takes none back
(`Step.Grows`), whatever its collaborators do. So a session in which no pause has been made in the
end has made none on the way (`Session.pauses_eq_nil`).
-/

namespace ScanPlanner

variable {ω α β : Type}

/-- The step only adds to the trace. What has happened before it remains what it was, so that the
lookups and pauses of a run are those of its steps one after the other. -/
def Step.Grows (x : Step ω α) : Prop := ∀ s, s.trace <+: (outcome x s).2.trace

theorem Session.pauses_eq_nil {s s' : Session ω} (h : s.trace <+: s'.trace)
    (none : s'.pauses = []) : s.pauses = [] := by
  unfold pauses at none ⊢
  exact List.prefix_nil.mp (none ▸ h.filterMap Event.pause?)

/-- A pause that is recorded comes behind those that were made before. -/
theorem Session.pauses_record (s : Session ω) (millis : Nat) :
    (s.record (.paused millis)).pauses = s.pauses ++ [millis] := by
  unfold pauses record
  rw [List.filterMap_append]
  rfl

namespace Step

variable {x : Step ω α} {g : α → Step ω β}

theorem grows_pure (a : α) : Grows (pure a : Step ω α) := fun _ => List.prefix_rfl

theorem grows_throw (f : Failure) : Grows (throw f : Step ω α) := fun _ => List.prefix_rfl

/-- A composition adds what its first part adds and, if there is a value, what its second part adds
after it. -/
theorem grows_bind_of_ok (hx : Grows x)
    (hg : ∀ s a s', outcome x s = (.ok a, s') → Grows (g a)) : Grows (x >>= g) := by
  intro s
  have first := hx s
  rw [outcome_bind]
  rcases hrun : outcome x s with ⟨f | a, s'⟩
  · rw [hrun] at first
    exact first
  · rw [hrun] at first
    exact first.trans (hg s a s' hrun s')

theorem Grows.bind (hx : Grows x) (hg : ∀ a, Grows (g a)) : Grows (x >>= g) :=
  grows_bind_of_ok hx fun _ a _ _ => hg a

theorem grows_throw_bind (f : Failure) : Grows (throw f >>= g) :=
  fun _ => List.prefix_rfl

theorem grows_record (e : Event) : Grows (record e : Step ω Unit) :=
  fun _ => List.prefix_append _ _

theorem grows_log (s : Session ω) (notes : List Note) : s.trace <+: (s.log notes).trace :=
  List.prefix_append _ _

theorem grows_note (severity : Severity) (source : Source) (text : String) :
    Grows (note severity source text : Step ω Unit) :=
  fun s => grows_log s _

theorem grows_ofResult (r : Result α) : Grows (ofResult r : Step ω α) := by
  cases r with
  | ok a => exact grows_pure a
  | error f => exact grows_throw f

/-- A collaborator has the world at hand and no trace. -/
theorem grows_perform (effect : Effect ω α) : Grows (perform effect) := by
  intro s
  rw [outcome_perform]
  exact grows_log { s with world := (outcome effect ⟨s.world, []⟩).2.world } _

theorem grows_ask (q : Question) (about : TableId) (effect : Effect ω α) :
    Grows (ask q about effect) :=
  (grows_record _).bind fun _ => grows_perform effect

theorem grows_draw (c : Collaborators ω) (bound : Nat) : Grows (draw c bound) :=
  fun _ => List.prefix_append _ _

/-- A failure is reported in another way, and nothing else happens. -/
theorem session_forTable (table : TableName) (x : Step ω α) (s : Session ω) :
    (outcome (forTable table x) s).2 = (outcome x s).2 := by
  unfold forTable
  rw [outcome_tryCatch]
  rcases outcome x s with ⟨f | a, s'⟩ <;> rfl

theorem Grows.forTable (table : TableName) (hx : Grows x) : Grows (forTable table x) := by
  intro s
  rw [session_forTable]
  exact hx s

theorem Grows.atLevel (level : Option Int) (hx : Grows x) : Grows (atLevel level x) :=
  fun s => hx { s with level := level.getD s.level }

/-! ## Planning -/

/-- Steps that grow, where each value has one that belongs to it. -/
def growth (ω : Type) : Likeness ω ω where
  Like R x _ := Grows x ∧ ∀ s a s', outcome x s = (.ok a, s') → ∃ b, R a b
  pure {_ _ _ a b} h := ⟨grows_pure a, fun _ _ _ ran => by cases ran; exact ⟨b, h⟩⟩
  throw f := ⟨grows_throw f, fun _ _ _ ran => by cases ran⟩
  bind {_ _ _ _ _ _ x _ g _} hx hg := by
    constructor
    · refine grows_bind_of_ok hx.1 fun s a s' ran => ?_
      obtain ⟨b, hab⟩ := hx.2 s a s' ran
      exact (hg a b hab).1
    · intro s c s'' ran
      obtain ⟨a, s', hrun, ran⟩ := outcome_bind_ok.mp ran
      obtain ⟨b, hab⟩ := hx.2 s a s' hrun
      exact (hg a b hab).2 s' c s'' ran
  record e := ⟨grows_record e, fun _ a _ _ => ⟨a, rfl⟩⟩
  note severity source text := ⟨grows_note severity source text, fun _ a _ _ => ⟨a, rfl⟩⟩
  draw c _ bound _ := ⟨grows_draw c bound, fun _ a _ _ => ⟨a, rfl⟩⟩
  level := ⟨fun _ => List.prefix_rfl, fun _ a _ _ => ⟨a, rfl⟩⟩

variable (c : Collaborators ω)

/-- Any collaborators are partners of themselves for growth: they have the world at hand and no
trace, so they cannot take an event back. -/
theorem partners_growth : Partners (growth ω) (fun _ => True) c c where
  numbers := rfl
  canonical _ := ⟨grows_perform _, fun _ a _ _ => ⟨a, rfl⟩⟩
  resolve _ _ := ⟨grows_perform _, fun _ a _ _ => ⟨a, rfl⟩⟩
  invalidate _ := ⟨grows_perform _, fun _ a _ _ => ⟨a, rfl⟩⟩
  tableExists _ := ⟨grows_perform _, fun _ a _ _ => ⟨a, rfl⟩⟩
  tableState _ := ⟨grows_perform _, fun _ a _ _ => ⟨a, rfl⟩⟩
  binOffline _ _ := ⟨grows_perform _, fun _ a _ _ => ⟨a, rfl⟩⟩

/-- A pause adds its draw, its length and what happens in it. -/
theorem grows_pause (b : Backoff) (count : Nat) (meanwhile : Option (Effect ω Unit)) :
    Grows (b.pause c count meanwhile) := by
  unfold Backoff.pause
  refine Grows.bind ((partners_growth c).delay b).1 fun millis => ?_
  refine (grows_note _ _ _).bind fun _ => ?_
  by_cases long : (Backoff.seconds? millis).isNone = true
  · rw [if_pos long]
    exact grows_throw_bind _
  · rw [if_neg long]
    refine (grows_record _).bind fun _ => ?_
    cases meanwhile with
    | none => exact grows_throw_bind _
    | some effect => exact (grows_perform effect).bind fun _ => grows_pure millis

/-- A pause that has been made is in the trace. So a trace without pauses tells that none was
needed. -/
theorem pauses_ne_nil_of_pause {c : Collaborators ω} {b : Backoff} {count millis : Nat}
    {meanwhile : Option (Effect ω Unit)} {s s' : Session ω}
    (h : outcome (b.pause c count meanwhile) s = (.ok millis, s')) : s'.pauses ≠ [] := by
  unfold Backoff.pause at h
  obtain ⟨delay, s₁, -, h⟩ := outcome_bind_ok.mp h
  obtain ⟨_, s₂, -, h⟩ := outcome_bind_ok.mp h
  by_cases long : (Backoff.seconds? delay).isNone = true
  · rw [if_pos long] at h
    cases h
  · rw [if_neg long] at h
    obtain ⟨_, s₃, recorded, h⟩ := outcome_bind_ok.mp h
    cases recorded
    cases meanwhile with
    | none => cases h
    | some effect =>
      -- whatever the pause brings comes behind it
      have more :=
        ((grows_perform effect).bind fun _ => grows_pure delay) (s₂.record (.paused delay))
      have ran : outcome (perform effect >>= fun _ => pure delay) (s₂.record (.paused delay)) =
        (.ok millis, s') := h
      rw [ran] at more
      intro none
      have before := Session.pauses_eq_nil more none
      rw [Session.pauses_record] at before
      exact List.append_ne_nil_of_right_ne_nil _ (List.cons_ne_nil _ _) before

/-- What a run of attempts does after a pause. -/
def resume (b : Backoff) (attempt : Step ω (Option Binning)) (count : Nat) :
    Schedule ω → Step ω (Binning × Schedule ω)
  | [] => throw (.raised "no more sleeps scripted")
  | _ :: rest => Locating.retry c b attempt (count + 1) rest

/-- A run of attempts is one attempt, and a pause with the rest of the run behind it if the attempt
decides nothing. Both forms of a schedule have this in common. -/
theorem retry_eq (b : Backoff) (attempt : Step ω (Option Binning)) (count : Nat)
    (schedule : Schedule ω) :
    Locating.retry c b attempt count schedule = (do
      match ← attempt with
      | some binning => return (binning, schedule)
      | none =>
        let _ ← b.pause c count schedule.head?
        resume c b attempt count schedule) := by
  cases schedule <;> rfl

section

variable {c} {b : Backoff} {attempt : Step ω (Option Binning)} (h : Grows attempt)
include h

/-- A run of attempts adds to the trace if its rest does. The rest is given, since it is a run on a
shorter schedule. -/
theorem grows_retry_of_resume (count : Nat) {schedule : Schedule ω}
    (next : Grows (resume c b attempt count schedule)) :
    Grows (Locating.retry c b attempt count schedule) := by
  rw [retry_eq]
  refine h.bind fun found => ?_
  cases found with
  | some binning => exact grows_pure _
  | none => exact (grows_pause c b count schedule.head?).bind fun _ => next

/-- The rest of a run only adds to the trace, however long the schedule is. -/
theorem grows_resume (count : Nat) (schedule : Schedule ω) :
    Grows (resume c b attempt count schedule) := by
  -- the rest of the run is a run on a shorter schedule
  induction schedule generalizing count with
  | nil => exact grows_throw _
  | cons meanwhile rest ih => exact grows_retry_of_resume h (count + 1) (ih (count + 1))

theorem grows_retry (count : Nat) (schedule : Schedule ω) :
    Grows (Locating.retry c b attempt count schedule) :=
  grows_retry_of_resume h count (grows_resume h count schedule)

/-- A run of attempts that has made no pause ends with its first attempt, which has found a
binning. -/
theorem attempt_of_retry {count : Nat} {schedule rest : Schedule ω} {binning : Binning}
    {s s' : Session ω}
    (ran : outcome (Locating.retry c b attempt count schedule) s = (.ok (binning, rest), s'))
    (none : s'.pauses = []) : outcome attempt s = (.ok (some binning), s') := by
  rw [retry_eq] at ran
  obtain ⟨found, s₁, attempted, ran⟩ := outcome_bind_ok.mp ran
  cases found with
  | some binning' =>
    cases ran
    exact attempted
  | none =>
    obtain ⟨_, s₂, paused, ran⟩ := outcome_bind_ok.mp ran
    have grown := grows_resume (c := c) (b := b) h count schedule s₂
    rw [ran] at grown
    exact absurd (Session.pauses_eq_nil grown none) (pauses_ne_nil_of_pause paused)

end

theorem grows_attemptOnline (id : TableId) (ranges : List KeyRange) :
    Grows (Locating.attemptOnline c id ranges) :=
  ((partners_growth c).attemptOnline trivial ranges).1

theorem grows_attemptOffline (id : TableId) (ranges : List KeyRange) :
    Grows (Locating.attemptOffline c id ranges) :=
  ((partners_growth c).attemptOffline trivial ranges).1

/-- To locate ranges only adds to the trace. -/
theorem grows_locate (b : Backoff) (id : TableId) (ranges : List KeyRange) (offline : Bool)
    (schedule : Schedule ω) : Grows (Locating.locate c b id ranges offline schedule) := by
  cases offline with
  | true => exact grows_retry (grows_attemptOffline c id ranges) 1 schedule
  | false => exact grows_retry (grows_attemptOnline c id ranges) 1 schedule

theorem grows_make (f : SplitFrame) (b : Binning) (scan : TableScan) (size : Int) :
    Grows (Splitting.make c f b scan size) :=
  ((partners_growth c).make f b scan size).1

end Step

end ScanPlanner
