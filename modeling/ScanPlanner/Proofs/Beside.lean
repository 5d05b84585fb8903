import ScanPlanner.Proofs.Locality
import ScanPlanner.Proofs.Wholes

/-!
# Two runs side by side

Two sessions stand beside one another if they differ in the log and in what the caches hold at most
(`Session.Beside`). A step follows another one if, begun beside it, it gives a value whenever the
other one does, one that belongs to that value, and ends beside it (`Step.Follows`). Steps that are
put together follow one another if their parts do.

If two attempts agree in every store along the schedule, the same pauses are made
(`Locating.follows_retry`). So the plan of a table follows the one for other ranges if attempts to
locate them agree and the splits made of what they find are the same
(`Planning.follows_planTable`).
-/

namespace ScanPlanner

variable {ω α β γ δ : Type}

/-! ## Sessions -/

/-- The two sessions are in front of the same store, with caches in order of the same size, and the
same numbers come next. -/
structure Session.Beside (s t : Session (Cached ω)) : Prop where
  backing : t.world.backing = s.world.backing
  capacity : t.world.known.capacity = s.world.known.capacity
  known : s.world.known.WellFormed
  known' : t.world.known.WellFormed
  drawn : t.drawn = s.drawn

namespace Session.Beside

variable {s s' t t' : Session (Cached ω)}

theorem refl (known : s.world.known.WellFormed) : s.Beside s := ⟨rfl, rfl, known, known, rfl⟩

/-- Sessions that have rested are still beside one another: neither the store nor the cache nor the
numbers were touched. -/
theorem rested (h : s.Beside t) (hs : s.Rested s') (ht : t.Rested t') : s'.Beside t' where
  backing := by rw [hs.world, ht.world, h.backing]
  capacity := by rw [hs.world, ht.world, h.capacity]
  known := hs.world ▸ h.known
  known' := ht.world ▸ h.known'
  drawn := by rw [hs.drawn, ht.drawn, h.drawn]

/-- Sessions that only asked questions are still beside one another, although the questions and what
the caches now hold may differ. -/
theorem consulted (h : s.Beside t) {es es' : List Event} (hs : s.Consulted es s')
    (ht : t.Consulted es' t') : s'.Beside t' where
  backing := by rw [hs.backing, ht.backing, h.backing]
  capacity := by rw [hs.capacity, ht.capacity, h.capacity]
  known := hs.known h.known
  known' := ht.known h.known'
  drawn := by rw [hs.drawn, ht.drawn, h.drawn]

end Session.Beside

/-! ## Steps -/

namespace Step

/-- Whenever `x` gives a value in `s`, `y` gives in `t` one that belongs to it, and the sessions are
beside one another again. -/
def Follows (R : α → β → Prop) (x : Step (Cached ω) α) (s : Session (Cached ω))
    (y : Step (Cached ω) β) (t : Session (Cached ω)) : Prop :=
  ∀ a s', outcome x s = (.ok a, s') → ∃ b t', outcome y t = (.ok b, t') ∧ R a b ∧ s'.Beside t'

variable {R : α → β → Prop} {Q : γ → δ → Prop} {s t : Session (Cached ω)}
  {x : Step (Cached ω) α} {y : Step (Cached ω) β}

/-- Two values that belong together follow one another wherever the sessions are beside each
other. -/
theorem follows_pure {a : α} {b : β} (related : R a b) (beside : s.Beside t) :
    Follows R (pure a) s (pure b) t := by
  intro _ _ run
  cases run
  exact ⟨b, t, rfl, related, beside⟩

/-- The second step begins where the first one has ended, on either side. It has to follow only for
results that the first step really gives, and these are related. -/
theorem Follows.bind {g : α → Step (Cached ω) γ} {h : β → Step (Cached ω) δ}
    (hx : Follows R x s y t) (hg : ∀ a b s' t', outcome x s = (.ok a, s') → R a b → s'.Beside t' →
      Follows Q (g a) s' (h b) t') :
    Follows Q (x >>= g) s (y >>= h) t := by
  intro c s'' run
  obtain ⟨a, s', first, second⟩ := outcome_bind_ok.mp run
  obtain ⟨b, t', first', related, beside⟩ := hx a s' first
  obtain ⟨d, t'', second', related', beside'⟩ := hg a b s' t' first related beside c s'' second
  exact ⟨d, t'', outcome_bind_ok.mpr ⟨b, t', first', second'⟩, related', beside'⟩

/-- A result that is known already leaves both sessions as they are. Of a result that is a failure
nothing is asked, because only runs that succeed are followed. -/
theorem follows_ofResult_bind {r : Result α} {r' : Result β} {g : α → Step (Cached ω) γ}
    {h : β → Step (Cached ω) δ}
    (hr : ∀ a, r = .ok a → ∃ b, r' = .ok b ∧ Follows Q (g a) s (h b) t) :
    Follows Q (Step.ofResult r >>= g) s (Step.ofResult r' >>= h) t := by
  intro c s' run
  obtain ⟨a, _, first, second⟩ := outcome_bind_ok.mp run
  rw [outcome_ofResult, Prod.mk.injEq] at first
  obtain ⟨rfl, rfl⟩ := first
  obtain ⟨b, rfl, follows⟩ := hr a rfl
  obtain ⟨d, t', second', related⟩ := follows c s' second
  exact ⟨d, t', outcome_bind_ok.mpr ⟨b, t, rfl, second'⟩, related⟩

/-- What is written in the log makes no difference. -/
theorem follows_note (severity severity' : Severity) (source source' : Source)
    (text text' : String) (beside : s.Beside t) :
    Follows Eq (Step.note severity source text) s (Step.note severity' source' text') t := by
  intro _ _ run
  cases run
  exact ⟨(), _, rfl, rfl, beside.rested ⟨rfl, rfl⟩ ⟨rfl, rfl⟩⟩

/-- The same question put to both stores has the same answer, because the stores are the same. The
caches may differ, but they are not asked. -/
theorem follows_ask (q : Question) (about : TableId) (question : ω → Result α)
    (beside : s.Beside t) :
    Follows Eq (Step.ask q about (Locator.behind (Effect.ask question))) s
      (Step.ask q about (Locator.behind (Effect.ask question))) t := by
  intro a s' run
  obtain ⟨s₁, run₁, consulted₁⟩ := Store.outcome_ask_behind q about question s
  obtain ⟨t₁, run₂, consulted₂⟩ := Store.outcome_ask_behind q about question t
  rw [run, Prod.mk.injEq] at run₁
  obtain ⟨answer, rfl⟩ := run₁
  rw [beside.backing, ← answer] at run₂
  exact ⟨a, t₁, run₂, rfl, beside.consulted consulted₁ consulted₂⟩

/-- The wrapper that names the table in a failure does not touch a step that gives a value. -/
theorem Follows.forTable (table : TableName) (h : Follows R x s y t) :
    Follows R (Step.forTable table x) s (Step.forTable table y) t := by
  intro a s' run
  obtain ⟨b, t', run', after⟩ := h a s' (Planning.forTable_eq_ok run)
  refine ⟨b, t', ?_, after⟩
  unfold Step.forTable
  rw [outcome_tryCatch, run']

/-- A level of logging that is set for a step and restored afterwards is no difference between the
sessions. -/
theorem Follows.atLevel (level : Option Int) (h : Follows R x { s with level := level.getD s.level }
      y { t with level := level.getD t.level }) :
    Follows R (Step.atLevel level x) s (Step.atLevel level y) t := by
  intro a s' run
  rw [outcome_atLevel, Prod.mk.injEq] at run
  obtain ⟨value, rfl⟩ := run
  obtain ⟨b, t', run', related, beside⟩ := h a _ (Prod.ext value rfl)
  refine ⟨b, { t' with level := t.level }, ?_, related, beside.rested ⟨rfl, rfl⟩ ⟨rfl, rfl⟩⟩
  rw [outcome_atLevel, run']

end Step

/-! ## Attempts and pauses -/

namespace Store

/-- What an attempt to locate ranges comes to. -/
def verdict (store : Store ω) (offline : Bool) (capacity : Int) (id : TableId)
    (ranges : List KeyRange) (w : ω) : Result (Option Binning) :=
  if offline then store.offline w id ranges else store.online capacity w id ranges

/-- If an attempt on `ranges` does not fail, one on `ranges'` does not either, and they give related
binnings or none. -/
def Agrees (store : Store ω) (R : Binning → Binning → Prop) (offline : Bool) (capacity : Int)
    (id : TableId) (ranges ranges' : List KeyRange) (w : ω) : Prop :=
  ∀ found, store.verdict offline capacity id ranges w = .ok found →
    ∃ found', store.verdict offline capacity id ranges' w = .ok found' ∧
      Option.Rel R found found'

/-- Attempts on the same ranges agree, with the same binning. -/
theorem agrees_refl (store : Store ω) (offline : Bool) (capacity : Int) (id : TableId)
    (ranges : List KeyRange) (w : ω) : store.Agrees Eq offline capacity id ranges ranges w := by
  intro found h
  refine ⟨found, h, ?_⟩
  cases found with
  | none => exact .none
  | some binning => exact .some rfl

end Store

namespace Locating

open Step

section

variable {c : Collaborators (Cached ω)} {b : Backoff} {s t : Session (Cached ω)}

/-- A pause of both runs draws the same number and has the same effect on the same store, so if one
passes the other does. -/
theorem follows_pause (count : Nat) (e : Effect ω Unit) (beside : s.Beside t) :
    Follows (fun _ _ => True) (b.pause c count (some (Locator.behind e))) s
      (b.pause c count (some (Locator.behind e))) t := by
  intro millis s' run
  obtain ⟨passes, world, drawn⟩ := Backoff.pause_behind_eq_ok run
  -- the other pause passes or fails, and only the store and the next number decide which
  obtain ⟨t₁, pause | ⟨fails, -⟩⟩ :=
    Backoff.outcome_pause (b := b) c t (Locator.behind e) count
  · obtain ⟨-, run', world', -, drawn', -⟩ := pause
    rw [Schedule.worldAfter_behind] at world'
    refine ⟨_, t₁, run', trivial, ?_⟩
    exact {
      backing := by rw [world, world', beside.backing]
      capacity := by rw [world, world', beside.capacity]
      known := world ▸ beside.known
      known' := world' ▸ beside.known'
      drawn := by rw [drawn, drawn', beside.drawn] }
  · rw [Backoff.passes_behind, beside.backing, beside.drawn] at fails
    exact absurd passes fails

variable {attempt attempt' : Step (Cached ω) (Option Binning)} {capacity : Int}
  {verdict verdict' : ω → Result (Option Binning)} {asked asked' : ω → List Event}
  {R : Binning → Binning → Prop}

/-- Attempts whose verdicts agree on the store at hand follow one another. The verdict is a function
of the store, which is what both sessions have in common. -/
theorem follows_attempt (decides : Decides attempt capacity verdict asked)
    (decides' : Decides attempt' capacity verdict' asked') (beside : s.Beside t)
    (hcap : s.world.known.capacity = capacity)
    (agree : ∀ found, verdict s.world.backing = .ok found →
      ∃ found', verdict' s.world.backing = .ok found' ∧ Option.Rel R found found') :
    Follows (Option.Rel R) attempt s attempt' t := by
  intro found s' run
  -- each attempt comes to its verdict and changes nothing but the cache
  obtain ⟨s₁, run₁, consulted₁⟩ := decides s beside.known hcap
  obtain ⟨t₁, run₂, consulted₂⟩ := decides' t beside.known' (beside.capacity.trans hcap)
  rw [run, Prod.mk.injEq] at run₁
  obtain ⟨decided, rfl⟩ := run₁
  obtain ⟨found', decided', related⟩ := agree found decided.symm
  rw [beside.backing, decided'] at run₂
  exact ⟨found', t₁, run₂, related, beside.consulted consulted₁ consulted₂⟩

/-- If the attempts agree whenever one is made, the same pauses are made. What happens in them
changes both stores alike, so the next attempts are made on equal stores again. -/
theorem follows_retry (decides : Decides attempt capacity verdict asked)
    (decides' : Decides attempt' capacity verdict' asked') {schedule : Schedule ω}
    (beside : s.Beside t) (hcap : s.world.known.capacity = capacity)
    (agree : ∀ j found, verdict (Schedule.worldAt s.world.backing schedule j) = .ok found →
      ∃ found', verdict' (Schedule.worldAt s.world.backing schedule j) = .ok found' ∧
        Option.Rel R found found')
    (count : Nat) :
    Follows (fun found found' => R found.1 found'.1 ∧ found'.2 = found.2)
      (retry c b attempt count (schedule.map Locator.behind)) s
      (retry c b attempt' count (schedule.map Locator.behind)) t := by
  -- induction on the schedule, for any two sessions beside one another
  induction schedule generalizing s t count with
  | nil =>
    refine (follows_attempt decides decides' beside hcap (agree 0)).bind
      fun found found' s₁ t₁ _ related beside₁ => ?_
    cases related with
    | some related => exact follows_pure ⟨related, rfl⟩ beside₁
    | none =>
      -- without a pause left there is no binning
      intro _ _ run
      obtain ⟨_, _, -, run⟩ := outcome_bind_ok.mp run
      cases run
  | cons e schedule ih =>
    refine (follows_attempt decides decides' beside hcap (agree 0)).bind
      fun found found' s₁ t₁ run related beside₁ => ?_
    cases related with
    | some related => exact follows_pure ⟨related, rfl⟩ beside₁
    | none =>
      refine (follows_pause count e beside₁).bind fun _ _ s₂ t₂ paused _ beside₂ => ?_
      obtain ⟨s₁', run', consulted⟩ := decides s beside.known hcap
      rw [run, Prod.mk.injEq] at run'
      obtain ⟨-, rfl⟩ := run'
      obtain ⟨-, world, -⟩ := Backoff.pause_behind_eq_ok paused
      rw [consulted.backing] at world
      refine ih beside₂ ?_ (fun j => ?_) (count + 1)
      · rw [world]
        exact consulted.capacity.trans hcap
      · rw [world]
        exact agree (j + 1)

end

/-! ### Locating -/

section

variable {store : Store ω} {c : Collaborators (Cached ω)} {kind : BackendKind} {b : Backoff}
  {id : TableId} {ranges ranges' : List KeyRange} {offline : Bool} {s t : Session (Cached ω)}
  {R : Binning → Binning → Prop}

/-- To locate ranges online or offline follows the other way of writing them if the attempts agree
before every attempt of the schedule. -/
theorem follows_locate (hc : c.backend = .ofCatalog kind store.catalog) {schedule : Schedule ω}
    (beside : s.Beside t)
    (agree : ∀ j, store.Agrees R offline s.world.known.capacity id ranges ranges'
      (Schedule.worldAt s.world.backing schedule j)) :
    Follows (fun found found' => R found.1 found'.1 ∧ found'.2 = found.2)
      (locate c b id ranges offline (schedule.map Locator.behind)) s
      (locate c b id ranges' offline (schedule.map Locator.behind)) t := by
  cases offline with
  | true =>
    exact follows_retry (decides_attemptOffline hc id ranges _)
      (decides_attemptOffline hc id ranges' _) beside rfl agree 1
  | false =>
    -- a table whose ranges are located has an id that can be looked up
    rintro ⟨binning, rest⟩ s' run
    obtain ⟨_, _, attempt⟩ := exists_attempt_of_retry run
    have scalar := isScalar_of_attemptOnline hc attempt
    exact follows_retry (decides_attemptOnline hc scalar ranges _)
      (decides_attemptOnline hc scalar ranges' _) beside rfl agree 1 _ s' run

end

end Locating

/-! ## Plans of a table -/

section

variable {lookup : String → Result Json} {c : Collaborators (Cached ω)}
  {s t : Session (Cached ω)}

/-- If lookups tell the splits of both binnings, it is enough to compare what they tell. The order
in which hosts are looked up may differ, and with it what the host books have. -/
theorem Splitting.follows_make {f : SplitFrame} {b b' : Binning} {scan : TableScan}
    {r r' : Result (List Split)} (tells : Naming.Tells lookup r (splits c f b scan))
    (tells' : Naming.Tells lookup r' (splits c f b' scan)) (same : ∀ ss, r = .ok ss → r' = .ok ss)
    {size : Int} (room : 1 ≤ size) (beside : s.Beside t) :
    Step.Follows Eq (make c f b scan size) s (make c f b' scan size) t := by
  intro ss s' run
  obtain ⟨s₁, run₁, rested₁⟩ := outcome_make_of_tells tells room s
  obtain ⟨t₁, run₂, rested₂⟩ := outcome_make_of_tells tells' room t
  rw [run, Prod.mk.injEq] at run₁
  obtain ⟨made, rfl⟩ := run₁
  rw [same ss made.symm] at run₂
  exact ⟨ss, t₁, run₂, rfl, beside.rested rested₁ rested₂⟩

namespace Planning

open Step

variable {store : Store ω} {kind : BackendKind} {job job' : Job} {authorizations : List Json}
  {size : Int} {table : TableName} {scan : TableScan} {schedule : Schedule ω}

/-- The ranges of a table can be written another way, if attempts to locate them agree and splits
are made alike. -/
theorem follows_planTable (hc : c.backend = .ofCatalog kind store.catalog)
    {R : Binning → Binning → Prop} {others : List KeyRange}
    (located : ∀ id ranges, store.tableId s.world.backing table = .ok id →
      KeyRange.normalize scan.ranges scan.adjust = .ok ranges →
      ∃ ranges', KeyRange.normalize others scan.adjust = .ok ranges' ∧
        ∀ j, store.Agrees R scan.offline s.world.known.capacity id ranges ranges'
          (Schedule.worldAt s.world.backing schedule j))
    (made : ∀ f b b' s t, scan.check table = .ok () → R b b' → s.Beside t →
      Follows Eq (Splitting.make c f b scan size) s (Splitting.make c f b' scan size) t)
    (settings : job'.settings = job.settings) (beside : s.Beside t) :
    Follows Eq (planTable c job authorizations size table scan (schedule.map Locator.behind)) s
      (planTable c job' authorizations size table { scan with ranges := others }
        (schedule.map Locator.behind)) t := by
  rw [planTable_eq, planTable_eq]
  refine follows_ofResult_bind fun _ checked => ⟨_, checked, Follows.forTable table ?_⟩
  rw [hc]
  refine (follows_ask .tableId table (store.tableId · table) beside).bind
    fun id _ s₁ t₁ asked same beside₁ => ?_
  subst same
  obtain ⟨_, run, consulted⟩ := Store.outcome_ask_behind .tableId table (store.tableId · table) s
  rw [asked, Prod.mk.injEq] at run
  obtain ⟨known, rfl⟩ := run
  -- asking for the id leaves the store as it is
  rw [← consulted.backing] at located known
  rw [← consulted.capacity] at located
  unfold planWithId
  refine follows_ofResult_bind fun ranges normalized => ?_
  obtain ⟨ranges', normalized', agree⟩ := located id ranges known.symm normalized
  refine ⟨ranges', normalized', ?_⟩
  refine (follows_note _ _ _ _ _ _ beside₁).bind fun _ _ s₂ t₂ noted _ beside₂ => ?_
  cases noted
  rw [settings]
  refine follows_ofResult_bind fun b given => ⟨b, given, ?_⟩
  refine (Locating.follows_locate hc beside₂ agree).bind
    fun found found' s₃ t₃ _ related beside₃ => ?_
  obtain ⟨binning, rest⟩ := found
  obtain ⟨binning', rest'⟩ := found'
  obtain ⟨related, rfl⟩ := related
  refine (made _ _ _ _ _ checked related beside₃).bind fun ss _ _ _ _ same beside₄ => ?_
  subst same
  exact follows_pure rfl beside₄

end Planning

end

end ScanPlanner
