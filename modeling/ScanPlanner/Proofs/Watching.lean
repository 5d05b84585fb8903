import ScanPlanner.Proofs.Failing
import ScanPlanner.Proofs.Likeness

/-!
# Watching collaborators

To tell which call to a collaborator fails, and which calls follow it, the collaborators are
watched: each call is written down with the failure that it ended with. Nobody notices. A step with
watched collaborators does what it does with the others, and the calls that it makes are all
answered, unless it is the last one that makes the step fail (`Mirrors`). This holds of the least
steps and is kept by putting steps together (`Mirrors.likeness`), and so it holds of planning a
table (`Planning.mirrors_planTable`).
-/

namespace ScanPlanner

variable {ω α β γ δ : Type}

/-! ## Watched worlds -/

/-- What a collaborator is called for. -/
inductive Call where
  | question (q : Question)
  | lookUp (host : String)
  | pause
deriving DecidableEq

/-- A call, and the failure that it ended with, if it did not end with a value. -/
structure CallEnd where
  call : Call
  failure? : Option Failure
deriving DecidableEq

/-- A world, and the calls that were made in it. The collaborators are watched from outside, so that
the steps of planning are those that also run unwatched. -/
structure Watched (ω : Type) where
  world : ω
  calls : List CallEnd

/-- The failure that a result is, if it is one. -/
def Result.failure? : Result α → Option Failure
  | .ok _ => none
  | .error f => some f

/-- Does the same, and writes the call down. A call that fails is written down too, with its
failure. -/
def Effect.watched (call : Call) (effect : Effect ω α) : Effect (Watched ω) α := fun scene =>
  let (result, inner) := effect.run ⟨scene.world.world, scene.notes⟩
  (result, ⟨⟨inner.world, scene.world.calls ++ [⟨call, Result.failure? result⟩]⟩, inner.notes⟩)

/-- The collaborators, watched. -/
def Collaborators.watched (c : Collaborators ω) : Collaborators (Watched ω) where
  backend := {
    kind := c.backend.kind
    locator := {
      tableId := fun name => (c.backend.locator.tableId name).watched (.question .tableId)
      resolve := fun id ranges => (c.backend.locator.resolve id ranges).watched (.question .resolve)
      invalidate := fun id => (c.backend.locator.invalidate id).watched (.question .invalidate)
      tableExists := fun id => (c.backend.locator.tableExists id).watched (.question .tableExists)
      tableState := fun id => (c.backend.locator.tableState id).watched (.question .tableState) }
    binOffline := fun id ranges =>
      (c.backend.binOffline id ranges).watched (.question .binOffline) }
  canonical host := (c.canonical host).watched (.lookUp host)
  numbers := c.numbers

/-- What happens when the schedule has ended. -/
def Schedule.ended : Effect ω Unit := throw (.raised "no more sleeps scripted")

/-- The pauses, watched; also the one that fails because the schedule has ended. -/
def Schedule.watched (schedule : Schedule ω) : Schedule (Watched ω) :=
  (schedule ++ [ended]).map (Effect.watched .pause)

namespace Session

/-- The session in which calls are watched from now on. -/
def watched (s : Session ω) : Session (Watched ω) := ⟨⟨s.world, []⟩, s.level, s.drawn, s.trace⟩

/-- The session without the calls. -/
def unwatched (s : Session (Watched ω)) : Session ω := ⟨s.world.world, s.level, s.drawn, s.trace⟩

end Session

/-! ## What calls tell -/

/-- All calls ended with values. Of a plan that fails this is true up to the call that failed, if it
was one. -/
def Answered (calls : List CallEnd) : Prop := ∀ e ∈ calls, e.failure? = none

theorem answered_nil : Answered [] := fun _ h => (List.not_mem_nil h).elim

/-- Calls that were all answered, followed by more of that kind. -/
theorem Answered.append {calls more : List CallEnd} (h : Answered calls) (h' : Answered more) :
    Answered (calls ++ more) := by
  intro e he
  rcases List.mem_append.mp he with he | he
  · exact h e he
  · exact h' e he

/-- The calls were answered up to the last one, which is either answered too or failed with a
failure that is reported by the result. -/
inductive Told (reports : Failure → Failure → Prop) : Result α → List CallEnd → Prop
  | answered (result : Result α) {calls : List CallEnd} (h : Answered calls) :
    Told reports result calls
  | failed {before : List CallEnd} {f g : Failure} (h : Answered before) (call : Call)
    (hf : reports f g) : Told reports (.error g) (before ++ [⟨call, some f⟩])

namespace Told

variable {reports reports' : Failure → Failure → Prop} {calls more : List CallEnd}

theorem answered_of_ok {a : α} (h : Told reports (.ok a : Result α) calls) : Answered calls := by
  cases h with
  | answered _ h => exact h

/-- Calls that were answered may come first: they change nothing about the last one. -/
theorem append {r : Result α} (hcalls : Answered calls) (h : Told reports r more) :
    Told reports r (calls ++ more) := by
  cases h with
  | answered _ h => exact .answered r (hcalls.append h)
  | failed h call hf =>
    rw [← List.append_assoc]
    exact .failed (hcalls.append h) call hf

/-- What the calls tell of a failure does not depend on the value that might have been there. -/
theorem of_error {f : Failure} (h : Told reports (.error f : Result α) calls) :
    Told reports (.error f : Result β) calls := by
  cases h with
  | answered _ h => exact .answered _ h
  | failed h call hf => exact .failed h call hf

/-- A failure that is reported in one way is reported in any way that this one implies. -/
theorem mono {r : Result α} (h : Told reports r calls)
    (hr : ∀ f g, reports f g → reports' f g) : Told reports' r calls := by
  cases h with
  | answered _ h => exact .answered r h
  | failed h call hf => exact .failed h call (hr _ _ hf)

/-- A call that failed is the last one, and the result reports it. No call is made behind a
failure. -/
theorem last_of_mem {r : Result α} (h : Told reports r calls) {call : Call} {f : Failure}
    (hmem : ⟨call, some f⟩ ∈ calls) :
    (∃ before, calls = before ++ [⟨call, some f⟩] ∧ Answered before) ∧
      ∃ g, r = .error g ∧ reports f g := by
  cases h with
  | answered _ h => cases h _ hmem
  | @failed before f' g h call' hf =>
    rcases List.mem_append.mp hmem with hmem | hmem
    · cases h _ hmem
    · cases List.mem_singleton.mp hmem
      exact ⟨⟨before, rfl, h⟩, g, rfl, hf⟩

end Told

/-! ## Steps that mirror each other -/

/-- In a watched session the second step does what the first one does in the session without the
calls, and the calls that it makes tell how it ends. -/
def Mirrors (reports : Failure → Failure → Prop) (R : α → β → Prop) (x : Step ω α)
    (y : Step (Watched ω) β) : Prop :=
  ∀ s, Agree R (outcome x s.unwatched).1 (outcome y s).1 ∧
    (outcome y s).2.unwatched = (outcome x s.unwatched).2 ∧
    ∃ more, (outcome y s).2.world.calls = s.world.calls ++ more ∧
      Told reports (outcome y s).1 more

namespace Mirrors

variable {reports reports' : Failure → Failure → Prop} {R : α → β → Prop} {Q : γ → δ → Prop}

theorem pure {a : α} {b : β} (h : R a b) :
    Mirrors reports R (Pure.pure a : Step ω α) (Pure.pure b) :=
  fun _ => ⟨.ok h, rfl, [], (List.append_nil _).symm, .answered _ answered_nil⟩

theorem throw (f : Failure) : Mirrors reports R (MonadExcept.throw f : Step ω α)
    (MonadExcept.throw f) :=
  fun _ => ⟨.error f, rfl, [], (List.append_nil _).symm, .answered _ answered_nil⟩

/-- Parts that mirror each other, one after the other. Where the first ones end with a failure there
are no calls beyond theirs, and where they end with values all of their calls were answered. -/
theorem bind {x : Step ω α} {y : Step (Watched ω) β} {g : α → Step ω γ}
    {h : β → Step (Watched ω) δ} (hx : Mirrors reports R x y)
    (hg : ∀ a b, R a b → Mirrors reports Q (g a) (h b)) :
    Mirrors reports Q (x >>= g) (y >>= h) := by
  intro s
  obtain ⟨agree, same, more, calls, told⟩ := hx s
  -- the second parts start in the sessions that the first ones leave, which are the same again
  rw [outcome_bind, outcome_bind]
  rcases hrun : outcome x s.unwatched with ⟨r, s₁⟩
  rcases hrun' : outcome y s with ⟨r', s₁'⟩
  rw [hrun, hrun'] at agree same
  rw [hrun'] at calls told
  dsimp only at agree same calls told
  cases agree with
  | error f => exact ⟨.error f, same, more, calls, told.of_error⟩
  | @ok a b hab =>
    obtain ⟨agree', same', more', calls', told'⟩ := hg a b hab s₁'
    rw [same] at agree' same'
    refine ⟨agree', same', more ++ more', ?_, .append told.answered_of_ok told'⟩
    show (outcome (h b) s₁').2.world.calls = _
    rw [calls', calls, List.append_assoc]

/-- Steps that mirror each other do so for any weaker way to report a failure. -/
theorem mono {x : Step ω α} {y : Step (Watched ω) β} (h : Mirrors reports R x y)
    (hr : ∀ f g, reports f g → reports' f g) : Mirrors reports' R x y := by
  intro s
  obtain ⟨agree, same, more, calls, told⟩ := h s
  exact ⟨agree, same, more, calls, told.mono hr⟩

theorem bind_eq {x : Step ω α} {y : Step (Watched ω) α} {g : α → Step ω γ}
    {h : α → Step (Watched ω) δ} (hx : Mirrors reports Eq x y)
    (hg : ∀ a, Mirrors reports Q (g a) (h a)) : Mirrors reports Q (x >>= g) (y >>= h) :=
  hx.bind fun a _ e => e ▸ hg a

/-- What would come after a failure does not matter. -/
theorem throw_bind (f : Failure) {g : α → Step ω γ} {h : β → Step (Watched ω) δ} :
    Mirrors reports Q (MonadExcept.throw f >>= g) (MonadExcept.throw f >>= h) :=
  bind (R := fun _ _ => False) (throw f) fun _ _ never => never.elim

/-! ### Steps that make no call -/

/-- A result that is known makes no call. -/
theorem ofResult (r : Result α) : Mirrors reports Eq (Step.ofResult r : Step ω α)
    (Step.ofResult r) := by
  cases r with
  | ok a => exact pure rfl
  | error f => exact throw f

theorem record (e : Event) : Mirrors reports Eq (Step.record e : Step ω Unit) (Step.record e) :=
  fun _ => ⟨.ok rfl, rfl, [], (List.append_nil _).symm, .answered _ answered_nil⟩

theorem note (severity : Severity) (source : Source) (text : String) :
    Mirrors reports Eq (Step.note severity source text : Step ω Unit)
      (Step.note severity source text) :=
  fun _ => ⟨.ok rfl, rfl, [], (List.append_nil _).symm, .answered _ answered_nil⟩

/-- Drawing a number makes no call; the numbers of both sides are the same. -/
theorem draw (c : Collaborators ω) (c' : Collaborators (Watched ω)) (bound : Nat)
    (h : c'.numbers = c.numbers) : Mirrors reports Eq (Step.draw c bound) (Step.draw c' bound) := by
  intro s
  unfold Step.draw
  rw [h]
  exact ⟨.ok rfl, rfl, [], (List.append_nil _).symm, .answered _ answered_nil⟩

theorem level : Mirrors reports Eq (Step.level : Step ω Int) Step.level :=
  fun _ => ⟨.ok rfl, rfl, [], (List.append_nil _).symm, .answered _ answered_nil⟩

/-- Steps that mirror each other are alike. -/
def likeness (ω : Type) : Likeness ω (Watched ω) where
  Like := Mirrors Eq
  pure := pure
  throw := throw
  bind := bind
  record := record
  note := note
  draw := draw
  level := level

/-! ### Calls -/

/-- Letting a collaborator work is one call, which ends as the step does. The call is recorded
together with its failure. -/
theorem perform (call : Call) (effect : Effect ω α) :
    Mirrors Eq Eq (Step.perform effect) (Step.perform (effect.watched call)) := by
  intro s
  have scene : outcome (effect.watched call) ⟨s.world, []⟩ =
      ((outcome effect ⟨s.world.world, []⟩).1,
        ⟨⟨(outcome effect ⟨s.world.world, []⟩).2.world, s.world.calls ++
          [⟨call, Result.failure? (outcome effect ⟨s.world.world, []⟩).1⟩]⟩,
          (outcome effect ⟨s.world.world, []⟩).2.notes⟩) := rfl
  rw [Step.outcome_perform, Step.outcome_perform, scene]
  have same : s.unwatched.world = s.world.world := rfl
  rw [same]
  -- the call is written down with the failure if there is one, and that is the failure of the step
  rcases outcome effect ⟨s.world.world, []⟩ with ⟨f | a, after⟩
  · exact ⟨.error f, rfl, [⟨call, some f⟩], rfl, .failed answered_nil call rfl⟩
  · refine ⟨.ok rfl, rfl, [⟨call, none⟩], rfl, .answered _ fun e he => ?_⟩
    rw [List.mem_singleton.mp he]

/-- Watched collaborators are partners of the others: they do the same and record it besides. -/
theorem partners (c : Collaborators ω) :
    Partners (likeness ω) (fun _ => True) c c.watched where
  numbers := rfl
  canonical host := perform (.lookUp host) (c.canonical host)
  resolve _ _ := perform _ _
  invalidate _ := perform _ _
  tableExists _ := perform _ _
  tableState _ := perform _ _
  binOffline _ _ := perform _ _

/-! ### Pauses and attempts -/

/-- Pauses mirror each other if what happens in them does. Drawing the length and noting it are the
same on both sides. -/
theorem pause_of {R : Nat → Nat → Prop} (b : Backoff) (c : Collaborators ω) (count : Nat)
    {meanwhile : Option (Effect ω Unit)} {effect : Effect (Watched ω) Unit}
    (h : ∀ millis : Nat, Mirrors Eq R
      (match meanwhile with
        | some effect => Step.perform effect >>= fun _ => Pure.pure millis
        | none => MonadExcept.throw (.raised "no more sleeps scripted") >>=
            fun _ : PUnit => Pure.pure millis)
      (Step.perform effect >>= fun _ => Pure.pure millis)) :
    Mirrors Eq R (b.pause c count meanwhile) (b.pause c.watched count (some effect)) := by
  unfold Backoff.pause
  refine Mirrors.bind_eq ((partners c).delay b) fun millis => ?_
  refine (note _ _ _).bind_eq fun _ => ?_
  -- a pause that is too long to be slept fails before the effect begins
  by_cases long : (Backoff.seconds? millis).isNone = true
  · rw [if_pos long, if_pos long]
    exact throw_bind .outOfRange
  · rw [if_neg long, if_neg long]
    refine (record _).bind_eq fun _ => ?_
    cases meanwhile <;> exact h millis

/-- A pause with something happening meanwhile, which is the call that may fail. -/
theorem pause (b : Backoff) (c : Collaborators ω) (count : Nat) (meanwhile : Effect ω Unit) :
    Mirrors Eq Eq (b.pause c count (some meanwhile))
      (b.pause c.watched count (some (meanwhile.watched .pause))) :=
  pause_of b c count fun _ => (perform .pause meanwhile).bind_eq fun _ => pure rfl

/-- When the schedule has ended, the pause that fails is a call like the others, so that this
failure is reported as well. -/
theorem pause_ended (b : Backoff) (c : Collaborators ω) (count : Nat) :
    Mirrors Eq (fun _ _ => False) (b.pause c count none)
      (b.pause c.watched count (some (Schedule.ended.watched .pause))) := by
  refine pause_of b c count fun millis s => ⟨.error _, ?_, [⟨.pause, some _⟩], rfl, ?_⟩
  · -- what has been noted meanwhile is nothing
    show (s.unwatched.log []) = s.unwatched
    unfold Session.log
    rw [List.filter_nil, List.map_nil, List.append_nil]
  · exact .failed answered_nil _ rfl

/-- Attempts mirror each other, and so do their repetitions, each with the pause behind it. -/
theorem retry (c : Collaborators ω) (b : Backoff) {attempt : Step ω (Option Binning)}
    {attempt' : Step (Watched ω) (Option Binning)} (h : Mirrors Eq Eq attempt attempt')
    (count : Nat) (schedule : Schedule ω) :
    Mirrors Eq (fun found found' => found' = (found.1, found.2.watched))
      (Locating.retry c b attempt count schedule)
      (Locating.retry c.watched b attempt' count schedule.watched) := by
  -- induction on the schedule, which is what the recursion is on
  induction schedule generalizing count with
  | nil =>
    refine h.bind_eq fun found => ?_
    cases found with
    | some binning => exact pure rfl
    -- no attempt follows the last pause, since it fails
    | none => exact (pause_ended b c count).bind fun _ _ never => never.elim
  | cons meanwhile rest ih =>
    refine h.bind_eq fun found => ?_
    cases found with
    | some binning => exact pure rfl
    | none => exact (pause b c count meanwhile).bind_eq fun _ => ih (count + 1)

/-- Locating a table is one kind of attempt or the other, and each of them mirrors itself. -/
theorem locate (c : Collaborators ω) (b : Backoff) (id : TableId) (ranges : List KeyRange)
    (offline : Bool) (schedule : Schedule ω) :
    Mirrors Eq (fun found found' => found' = (found.1, found.2.watched))
      (Locating.locate c b id ranges offline schedule)
      (Locating.locate c.watched b id ranges offline schedule.watched) := by
  cases offline with
  | true => exact retry c b ((partners c).attemptOffline trivial ranges) 1 schedule
  | false => exact retry c b ((partners c).attemptOnline trivial ranges) 1 schedule

end Mirrors

/-! ## A table -/

namespace Planning

variable (c : Collaborators ω) (job : Job) (authorizations : List Json) (size : Int)

/-- The failure of the last call is reported as that of the table, unless it is a failure of
planning, which is reported as it is. -/
theorem mirrors_forTable {R : α → β → Prop} {x : Step ω α} {y : Step (Watched ω) β}
    (table : TableName) (h : Mirrors Eq R x y) :
    Mirrors (fun f g => g = f.ofTable table) R (Step.forTable table x) (Step.forTable table y) := by
  intro s
  obtain ⟨agree, same, more, calls, told⟩ := h s
  unfold Step.forTable
  rw [outcome_tryCatch, outcome_tryCatch]
  rcases hrun : outcome x s.unwatched with ⟨r, s₁⟩
  rcases hrun' : outcome y s with ⟨r', s₁'⟩
  rw [hrun, hrun'] at agree same
  rw [hrun'] at calls told
  dsimp only at agree same calls told
  cases agree with
  | ok hab => exact ⟨.ok hab, same, more, calls, .answered _ told.answered_of_ok⟩
  | error f =>
    refine ⟨.error (f.ofTable table), same, more, calls, ?_⟩
    -- the failure that is reported is the one that the last call ended with, under the name of the
    -- table
    cases told with
    | answered _ answered => exact .answered _ answered
    | failed answered call e =>
      rw [e]
      exact .failed answered call rfl

/-- Planning a table with watched collaborators is planning it with the others, and the calls tell
how it ends: the last one is the only one that can have failed, and its failure is that of the
table. -/
theorem mirrors_planTable (table : TableName) (scan : TableScan) (schedule : Schedule ω) :
    Mirrors (fun f g => g = f.ofTable table)
      (fun planned planned' => planned' = (planned.1, planned.2.watched))
      (planTable c job authorizations size table scan schedule)
      (planTable c.watched job authorizations size table scan schedule.watched) := by
  unfold planTable
  refine (Mirrors.ofResult _).bind_eq fun _ => mirrors_forTable table ?_
  have partners := Mirrors.partners c
  have asked : Mirrors Eq Eq (Step.ask .tableId table (c.backend.locator.tableId table))
      (Step.ask .tableId table (c.watched.backend.locator.tableId table)) :=
    (Mirrors.record _).bind_eq fun _ => Mirrors.perform _ _
  refine asked.bind_eq fun id => ?_
  refine (Mirrors.ofResult _).bind_eq fun ranges => ?_
  refine (Mirrors.note _ _ _).bind_eq fun _ => ?_
  refine (Mirrors.ofResult _).bind_eq fun pauses => ?_
  refine (Mirrors.locate c pauses id ranges scan.offline schedule).bind ?_
  -- what is left of the schedule is watched as well
  rintro ⟨binning, rest⟩ _ rfl
  exact Mirrors.bind_eq (partners.make _ binning scan size) fun _ => .pure rfl

end Planning

end ScanPlanner
