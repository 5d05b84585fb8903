import ScanPlanner.Proofs.Attempt

/-!
# Attempts and pauses in turn

A store changes only in the pauses, so before the attempt that follows `n` pauses it is the store
after the first `n` effects of the schedule (`Schedule.worldAt`). If an attempt is a function of
the store (`Locating.Decides`), the run ends with the first attempt that decides something, after as
many pauses, and its events are those of the attempts and pauses in turn
(`Locating.outcome_retry_of_first`). The other way round, a run that ends with a binning has it from
an attempt on the store as the pauses left it (`Locating.retry_eq_ok`).
-/

namespace ScanPlanner

variable {ω : Type}

/-! ## Pauses -/

/-- The world after pauses in which the given effects happened. -/
def Schedule.worldAfter (w : ω) (pauses : Schedule ω) : ω :=
  pauses.foldl (fun w e => (outcome e ⟨w, []⟩).2.world) w

/-- The world before the attempt that follows `n` pauses. What happens in a pause has happened when
the attempt after it is made. -/
def Schedule.worldAt (w : ω) (schedule : Schedule ω) (n : Nat) : ω := worldAfter w (schedule.take n)

theorem Schedule.worldAfter_append (w : ω) (pauses pauses' : Schedule ω) :
    worldAfter w (pauses ++ pauses') = worldAfter (worldAfter w pauses) pauses' :=
  List.foldl_append

/-- Before the attempt after the pauses that were made, all of their effects have happened and none
of the rest. -/
theorem Schedule.worldAt_length (w : ω) (made rest : Schedule ω) :
    worldAt w (made ++ rest) made.length = worldAfter w made := by
  unfold worldAt
  rw [List.take_left]

/-- The worlds of the rest of a schedule are those of the whole schedule, counted from where the
rest begins. -/
theorem Schedule.worldAt_append (w : ω) (made rest : Schedule ω) (j : Nat) :
    worldAt w (made ++ rest) (made.length + j) = worldAt (worldAfter w made) rest j := by
  unfold worldAt
  rw [List.take_length_add_append, worldAfter_append]

namespace Backoff

variable (b : Backoff) (numbers : Nat → Int)

/-- How many numbers are drawn for a pause. -/
def draws : Nat := if b.jitter > 0 then 1 else 0

/-- The length of a pause before which so many numbers have been drawn. -/
def delayAt (drawn : Nat) : Nat :=
  b.least + if b.jitter > 0 then (numbers drawn % b.jitter).toNat else 0

/-- What happens in a pause, apart from the effect of the schedule. -/
def pauseEvents (drawn : Nat) : List Event :=
  (if b.jitter > 0 then [.drew b.jitter] else []) ++ [.paused (b.delayAt numbers drawn)]

theorem least_le_delayAt (drawn : Nat) : b.least ≤ b.delayAt numbers drawn := by
  unfold delayAt
  omega

/-- With jitter a pause is shorter than the least delay and the jitter together, and without jitter
it is the least delay. -/
theorem delayAt_lt (drawn : Nat) :
    b.delayAt numbers drawn < b.least + b.jitter ∨
      b.jitter = 0 ∧ b.delayAt numbers drawn = b.least := by
  unfold delayAt
  by_cases h : b.jitter > 0
  · left
    rw [if_pos h]
    have := Int.emod_lt_of_pos (numbers drawn) (Int.natCast_pos.mpr h)
    have := Int.emod_nonneg (numbers drawn) (Int.natCast_ne_zero.mpr (Nat.ne_of_gt h))
    omega
  · right
    rw [if_neg h]
    omega

/-- A pause that draws a number moves the next one on, and a pause without jitter looks at no
number; either way the pause after it is the one that is counted next. -/
theorem pauseEvents_add_draws (drawn i : Nat) :
    b.pauseEvents numbers (drawn + b.draws + i) = b.pauseEvents numbers (drawn + (i + 1)) ∧
      b.delayAt numbers (drawn + b.draws + i) = b.delayAt numbers (drawn + (i + 1)) := by
  have same : b.delayAt numbers (drawn + b.draws + i) = b.delayAt numbers (drawn + (i + 1)) := by
    unfold delayAt draws
    by_cases h : b.jitter > 0
    · rw [if_pos h, if_pos h, if_pos h, show drawn + 1 + i = drawn + (i + 1) by omega]
    · rw [if_neg h, if_neg h]
  exact ⟨by rw [pauseEvents, pauseEvents, same], same⟩

variable {b} {numbers}

/-- The length of a pause is drawn from the next number if there is jitter; nothing else in the
session changes. -/
theorem outcome_delay (c : Collaborators ω) (s : Session ω) :
    ∃ s', outcome (b.delay c) s = (.ok (b.delayAt c.numbers s.drawn), s') ∧ s'.world = s.world ∧
      s'.level = s.level ∧ s'.drawn = s.drawn + b.draws ∧
      s'.happened = s.happened ++ if b.jitter > 0 then [.drew b.jitter] else [] := by
  unfold delay delayAt draws
  by_cases h : b.jitter > 0
  · simp only [h, if_true]
    refine ⟨_, rfl, rfl, rfl, rfl, ?_⟩
    exact Session.happened_record s rfl
  · simp only [h, if_false]
    exact ⟨s, rfl, rfl, rfl, rfl, (List.append_nil _).symm⟩

/-- The clock takes the time of a pause, and the effect that happens in it does not fail. A time
that is too long for a clock is not waited for at all. -/
def Passes (b : Backoff) (numbers : Nat → Int) (drawn : Nat) (w : ω) (meanwhile : Effect ω Unit) :
    Prop :=
  (seconds? (b.delayAt numbers drawn)).isSome = true ∧ (outcome meanwhile ⟨w, []⟩).1 = .ok ()

/-- What a pause comes to: it passes, or it fails. It fails if it is too long to be slept, or if
what happens in it fails. -/
theorem outcome_pause (c : Collaborators ω) (s : Session ω) (meanwhile : Effect ω Unit)
    (count : Nat) :
    ∃ s', b.Passes c.numbers s.drawn s.world meanwhile ∧
        outcome (b.pause c count (some meanwhile)) s = (.ok (b.delayAt c.numbers s.drawn), s') ∧
        s'.world = Schedule.worldAfter s.world [meanwhile] ∧ s'.level = s.level ∧
        s'.drawn = s.drawn + b.draws ∧
        s'.happened = s.happened ++ b.pauseEvents c.numbers s.drawn ∨
      ¬ b.Passes c.numbers s.drawn s.world meanwhile ∧
        ∃ f, outcome (b.pause c count (some meanwhile)) s = (.error f, s') := by
  obtain ⟨s₁, run₁, world₁, level₁, drawn₁, happened₁⟩ := outcome_delay (b := b) c s
  unfold pause Passes
  simp only [outcome_bind, run₁, Step.outcome_note]
  -- a pause is too long for the clock before its effect can happen
  cases seconds? (b.delayAt c.numbers s.drawn) with
  | none => exact ⟨_, .inr ⟨fun h => (by cases h.1), .outOfRange, rfl⟩⟩
  | some time =>
    simp only [Option.isNone_some, Bool.false_eq_true, if_false, outcome_bind,
      Step.outcome_record]
    generalize hs₂ : (Session.log s₁ _).record (.paused (b.delayAt c.numbers s.drawn)) = s₂
    have world₂ : s₂.world = s.world := by rw [← hs₂]; exact world₁
    have happened₂ : s₂.happened = s.happened ++ b.pauseEvents c.numbers s.drawn := by
      rw [← hs₂, Session.happened_record _ rfl, Session.happened_log, happened₁,
        List.append_assoc]
      rfl
    obtain ⟨s₃, run₃, world₃, level₃, drawn₃, happened₃⟩ :=
      Step.exists_outcome_perform meanwhile s₂
    rw [world₂] at run₃ world₃
    rw [run₃]
    refine ⟨s₃, ?_⟩
    -- the clock has taken the time, so only the effect can still fail
    cases (outcome meanwhile ⟨s.world, []⟩).1 with
    | error f => exact .inr ⟨fun h => (by cases h.2), f, rfl⟩
    | ok _ =>
      refine .inl ⟨⟨rfl, rfl⟩, rfl, world₃, ?_, ?_, happened₃.trans happened₂⟩
      · rw [level₃, ← hs₂]
        exact level₁
      · rw [drawn₃, ← hs₂]
        exact drawn₁

/-- An effect behind a cache passes as it does in front of the store, and leaves the cache. -/
theorem passes_behind {b : Backoff} {numbers : Nat → Int} {drawn : Nat} {world : Cached ω}
    {meanwhile : Effect ω Unit} :
    b.Passes numbers drawn world (Locator.behind meanwhile) ↔
      b.Passes numbers drawn world.backing meanwhile := by
  unfold Passes Locator.behind
  rw [Effect.outcome_within]

end Backoff

/-- An effect behind the cache happens to the store and leaves the cache as it is. -/
theorem Schedule.worldAfter_behind (world : Cached ω) (meanwhile : Effect ω Unit) :
    worldAfter world [Locator.behind meanwhile] =
      ⟨worldAfter world.backing [meanwhile], world.known⟩ := by
  show (outcome (Locator.behind meanwhile) ⟨world, []⟩).2.world = _
  unfold Locator.behind
  rw [Effect.outcome_within]
  rfl

/-- A pause that ends with its length has passed, and has changed the store by what happened in it.
The cache is not touched. -/
theorem Backoff.pause_behind_eq_ok {b : Backoff} {c : Collaborators (Cached ω)}
    {s s' : Session (Cached ω)} {meanwhile : Effect ω Unit} {count millis : Nat}
    (h : outcome (b.pause c count (some (Locator.behind meanwhile))) s = (.ok millis, s')) :
    b.Passes c.numbers s.drawn s.world.backing meanwhile ∧
      s'.world = ⟨Schedule.worldAfter s.world.backing [meanwhile], s.world.known⟩ ∧
      s'.drawn = s.drawn + b.draws := by
  obtain ⟨s₁, ⟨passes, run, world, -, drawn, -⟩ | ⟨-, f, failed⟩⟩ :=
    outcome_pause (b := b) c s (Locator.behind meanwhile) count
  · rw [h, Prod.mk.injEq] at run
    obtain ⟨-, rfl⟩ := run
    rw [Schedule.worldAfter_behind] at world
    exact ⟨passes_behind.mp passes, world, drawn⟩
  · rw [h] at failed
    cases failed

namespace Locating

/-! ## Runs -/

/-- The outcome of an attempt is a function of the store, and it only asks questions. Whatever the
cache holds when the attempt begins has no part in it. -/
def Decides (attempt : Step (Cached ω) (Option Binning)) (capacity : Int)
    (verdict : ω → Result (Option Binning)) (asked : ω → List Event) : Prop :=
  ∀ s : Session (Cached ω), s.world.known.WellFormed → s.world.known.capacity = capacity →
    ∃ s', outcome attempt s = (verdict s.world.backing, s') ∧
      s.Consulted (asked s.world.backing) s'

/-- An online attempt is a verdict on the store, if the id of the table can be written in a request
at all: it asks whether the table exists only if not all ranges are located. -/
theorem decides_attemptOnline {store : Store ω} {c : Collaborators (Cached ω)} {kind : BackendKind}
    (hc : c.backend = .ofCatalog kind store.catalog) {id : TableId} (hid : id.isScalar = true)
    (ranges : List KeyRange) (capacity : Int) :
    Decides (attemptOnline c id ranges) capacity (store.online capacity · id ranges)
      (store.onlineAsked capacity · id ranges) := by
  intro s hw hcap
  obtain ⟨s', run, consulted⟩ := outcome_attemptOnline hc ranges hid hw
  rw [hcap] at run consulted
  exact ⟨s', run, consulted⟩

/-- An offline attempt is a verdict on the store, whatever is cached: it asks one question and
nothing else. -/
theorem decides_attemptOffline {store : Store ω} {c : Collaborators (Cached ω)} {kind : BackendKind}
    (hc : c.backend = .ofCatalog kind store.catalog) (id : TableId) (ranges : List KeyRange)
    (capacity : Int) :
    Decides (attemptOffline c id ranges) capacity (store.offline · id ranges)
      fun _ => [.asked .binOffline id] :=
  fun s _ _ => outcome_attemptOffline hc s

variable {c : Collaborators (Cached ω)} {b : Backoff} {attempt : Step (Cached ω) (Option Binning)}
  {capacity : Int} {verdict : ω → Result (Option Binning)} {asked : ω → List Event}

/-- The events of a run that ends with the attempt after `n` pauses: what each attempt asks, and
between two attempts what happens in the pause. -/
def runEvents (b : Backoff) (numbers : Nat → Int) (asked : ω → List Event) (w : ω) (drawn : Nat)
    (schedule : Schedule ω) (n : Nat) : List Event :=
  (List.range n).flatMap (fun i =>
      asked (Schedule.worldAt w schedule i) ++ b.pauseEvents numbers (drawn + i)) ++
    asked (Schedule.worldAt w schedule n)

/-- The events of a run with one pause more begin with those of its first attempt and its first
pause. -/
theorem runEvents_cons (numbers : Nat → Int) (w : ω) (drawn : Nat) (e : Effect ω Unit)
    (rest : Schedule ω) (n : Nat) :
    runEvents b numbers asked w drawn (e :: rest) (n + 1) =
      asked w ++ b.pauseEvents numbers drawn ++
        runEvents b numbers asked (Schedule.worldAfter w [e]) (drawn + b.draws) rest n := by
  unfold runEvents
  rw [List.range_succ_eq_map, List.flatMap_cons, List.flatMap_map, List.append_assoc]
  have later (i : Nat) : b.pauseEvents numbers (drawn + b.draws + i) =
      b.pauseEvents numbers (drawn + (i + 1)) := (b.pauseEvents_add_draws numbers drawn i).1
  simp only [later]
  rfl

/-- An attempt that decides something ends the run, whatever is left of the schedule. The rest of
the schedule is handed back for the next table. -/
theorem outcome_retry_of_decided {c : Collaborators ω} {attempt : Step ω (Option Binning)}
    {s s' : Session ω} {o : Result Binning} (decided : outcome attempt s = (o.map some, s'))
    (count : Nat) (schedule : Schedule ω) :
    outcome (retry c b attempt count schedule) s = (o.map (·, schedule), s') := by
  cases schedule with
  | nil =>
    simp only [retry, outcome_bind, decided]
    cases o <;> rfl
  | cons meanwhile rest =>
    simp only [retry, outcome_bind, decided]
    cases o <;> rfl

/-- One round: after an attempt that decides nothing and a pause that passes, the run is a run on
the rest of the schedule, in the store that the pause left. -/
theorem outcome_retry_of_undecided (hd : Decides attempt capacity verdict asked)
    {s : Session (Cached ω)} {e : Effect ω Unit} (hw : s.world.known.WellFormed)
    (hcap : s.world.known.capacity = capacity) (undecided : verdict s.world.backing = .ok none)
    (passes : b.Passes c.numbers s.drawn s.world.backing e) (count : Nat)
    (rest : Schedule (Cached ω)) :
    ∃ s', outcome (retry c b attempt count (Locator.behind e :: rest)) s =
        outcome (retry c b attempt (count + 1) rest) s' ∧
      s'.world.backing = Schedule.worldAfter s.world.backing [e] ∧
      s'.world.known.WellFormed ∧ s'.world.known.capacity = capacity ∧
      s'.drawn = s.drawn + b.draws ∧
      s'.happened =
        s.happened ++ asked s.world.backing ++ b.pauseEvents c.numbers s.drawn := by
  obtain ⟨s₁, run₁, consulted⟩ := hd s hw hcap
  rw [undecided] at run₁
  have passes₁ : b.Passes c.numbers s₁.drawn s₁.world (Locator.behind e) := by
    rw [Backoff.passes_behind, consulted.drawn, consulted.backing]
    exact passes
  obtain ⟨s₂, ⟨-, run₂, world₂, -, drawn₂, happened₂⟩ | ⟨fails, -⟩⟩ :=
    Backoff.outcome_pause (b := b) c s₁ (Locator.behind e) count
  · -- the attempt keeps the store, and the pause keeps the cache
    rw [Schedule.worldAfter_behind, consulted.backing] at world₂
    refine ⟨s₂, ?_, by rw [world₂], ?_, ?_, ?_, ?_⟩
    · simp only [retry, outcome_bind, run₁, run₂]
    · rw [world₂]
      exact consulted.known hw
    · rw [world₂]
      exact consulted.capacity.trans hcap
    · rw [drawn₂, consulted.drawn]
    · rw [happened₂, consulted.happened, consulted.drawn]
  · exact absurd passes₁ fails

/-- A run ends with the first attempt that decides something. Each of the attempts before it is
followed by a pause, and each looks at the store as the pauses before it have left it. -/
theorem outcome_retry_of_first (hd : Decides attempt capacity verdict asked) {n : Nat}
    {schedule : Schedule ω} {s : Session (Cached ω)} {o : Result Binning} {w : ω}
    (hn : n ≤ schedule.length) (hw : s.world.known.WellFormed)
    (hcap : s.world.known.capacity = capacity) (hback : s.world.backing = w)
    (before : ∀ i < n, verdict (Schedule.worldAt w schedule i) = .ok none)
    (decided : verdict (Schedule.worldAt w schedule n) = o.map some)
    (passes : ∀ i < n, ∀ e, schedule[i]? = some e →
      b.Passes c.numbers (s.drawn + i) (Schedule.worldAt w schedule i) e)
    (count : Nat) :
    ∃ s', outcome (retry c b attempt count (schedule.map Locator.behind)) s =
        (o.map (·, (schedule.drop n).map Locator.behind), s') ∧
      s'.world.backing = Schedule.worldAt w schedule n ∧
      s'.world.known.WellFormed ∧ s'.world.known.capacity = capacity ∧
      s'.happened = s.happened ++ runEvents b c.numbers asked w s.drawn schedule n := by
  -- induction on the number of pauses, for any session to begin with: after one round the rest of
  -- the run is a run on the rest of the schedule
  induction n generalizing schedule s w count with
  | zero =>
    subst hback
    obtain ⟨s', run, consulted⟩ := hd s hw hcap
    exact ⟨s', outcome_retry_of_decided (run.trans (congrArg (·, s') decided)) count _,
      consulted.backing, consulted.known hw, consulted.capacity.trans hcap, consulted.happened⟩
  | succ n ih =>
    subst hback
    cases schedule with
    | nil => exact absurd hn (Nat.not_succ_le_zero n)
    | cons e rest =>
      obtain ⟨s₁, run₁, back₁, hw₁, hcap₁, drawn₁, happened₁⟩ :=
        outcome_retry_of_undecided (b := b) (c := c) hd hw hcap (before 0 (Nat.zero_lt_succ n))
          (passes 0 (Nat.zero_lt_succ n) e rfl) count (rest.map Locator.behind)
      -- a pause of the rest is the next pause of the whole schedule
      have passes₁ : ∀ i < n, ∀ e', rest[i]? = some e' → b.Passes c.numbers (s₁.drawn + i)
          (Schedule.worldAt (Schedule.worldAfter s.world.backing [e]) rest i) e' := by
        intro i hi e' he'
        unfold Backoff.Passes
        rw [drawn₁, (b.pauseEvents_add_draws c.numbers s.drawn i).2]
        exact passes (i + 1) (Nat.succ_lt_succ hi) e' he'
      obtain ⟨s₂, run₂, back₂, hw₂, hcap₂, happened₂⟩ :=
        ih (Nat.le_of_succ_le_succ hn) hw₁ hcap₁ back₁
          (fun i hi => before (i + 1) (Nat.succ_lt_succ hi)) decided passes₁ (count + 1)
      refine ⟨s₂, run₁.trans run₂, back₂, hw₂, hcap₂, ?_⟩
      rw [happened₂, happened₁, drawn₁, runEvents_cons]
      simp only [List.append_assoc]

/-- A binning comes from an attempt, whatever the attempts and pauses do. Nothing is said about
which attempt, so nothing need be known of the store. -/
theorem exists_attempt_of_retry {c : Collaborators ω} {attempt : Step ω (Option Binning)}
    {schedule rest : Schedule ω} {s s' : Session ω} {binning : Binning} {count : Nat}
    (h : outcome (retry c b attempt count schedule) s = (.ok (binning, rest), s')) :
    ∃ s₁ s₂, outcome attempt s₁ = (.ok (some binning), s₂) := by
  -- induction on the schedule
  induction schedule generalizing s count with
  | nil =>
    obtain ⟨found, s₁, hfound, h⟩ := outcome_bind_ok.mp h
    cases found with
    | some b' =>
      -- the last attempt: without a binning the run would have failed
      cases h
      exact ⟨s, _, hfound⟩
    | none =>
      obtain ⟨_, _, -, h⟩ := outcome_bind_ok.mp h
      cases h
  | cons e schedule ih =>
    obtain ⟨found, s₁, hfound, h⟩ := outcome_bind_ok.mp h
    cases found with
    | some b' =>
      cases h
      exact ⟨s, _, hfound⟩
    | none =>
      obtain ⟨_, _, -, h⟩ := outcome_bind_ok.mp h
      exact ih h

/-- A binning is what the store comes to as the pauses that were made left it. This is the converse
of following a run forward: the schedule is cut where the binning was found. -/
theorem retry_eq_ok (hd : Decides attempt capacity verdict asked) {schedule : Schedule ω}
    {rest' : Schedule (Cached ω)} {s s' : Session (Cached ω)} {binning : Binning} {count : Nat}
    (hw : s.world.known.WellFormed) (hcap : s.world.known.capacity = capacity)
    (h : outcome (retry c b attempt count (schedule.map Locator.behind)) s =
      (.ok (binning, rest'), s')) :
    ∃ made rest, schedule = made ++ rest ∧ rest' = rest.map Locator.behind ∧
      verdict (Schedule.worldAfter s.world.backing made) = .ok (some binning) ∧
      s'.world.backing = Schedule.worldAfter s.world.backing made ∧
      s'.world.known.WellFormed ∧ s'.world.known.capacity = capacity := by
  -- induction on the schedule, for any session to begin with
  induction schedule generalizing s count with
  | nil =>
    obtain ⟨found, s₁, hfound, h⟩ := outcome_bind_ok.mp h
    cases found with
    | some b' =>
      cases h
      obtain ⟨s₂, run, consulted⟩ := hd s hw hcap
      rw [hfound, Prod.mk.injEq] at run
      obtain ⟨now, rfl⟩ := run
      exact ⟨[], [], rfl, rfl, now.symm, consulted.backing, consulted.known hw,
        consulted.capacity.trans hcap⟩
    | none =>
      obtain ⟨_, _, -, h⟩ := outcome_bind_ok.mp h
      cases h
  | cons e schedule ih =>
    obtain ⟨found, s₁, hfound, h⟩ := outcome_bind_ok.mp h
    obtain ⟨s₂, run, consulted⟩ := hd s hw hcap
    rw [hfound, Prod.mk.injEq] at run
    obtain ⟨now, rfl⟩ := run
    cases found with
    | some b' =>
      cases h
      exact ⟨[], e :: schedule, rfl, rfl, now.symm, consulted.backing, consulted.known hw,
        consulted.capacity.trans hcap⟩
    | none =>
      obtain ⟨_, s₂, hpause, h⟩ := outcome_bind_ok.mp h
      -- the rest of the run begins in the world that this pause left
      obtain ⟨-, world, -⟩ := Backoff.pause_behind_eq_ok hpause
      rw [consulted.backing] at world
      obtain ⟨made, rest, rfl, hrest, decided, back, hw', hcap'⟩ :=
        ih (s := s₂) (by rw [world]; exact consulted.known hw)
          (by rw [world]; exact consulted.capacity.trans hcap) h
      rw [world] at decided back
      exact ⟨e :: made, rest, rfl, hrest, decided, back, hw', hcap'⟩

end Locating

end ScanPlanner
