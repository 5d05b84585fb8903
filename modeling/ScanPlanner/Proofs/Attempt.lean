import ScanPlanner.Proofs.Store
import ScanPlanner.Planning.Locating

/-!
# Single attempts

What one attempt to locate ranges does. With any catalog, an attempt that gives a binning has spread
the ranges over tablets that cover them (`Locating.attemptOnline_spread`,
`Locating.attemptOffline_spread`). With the catalog of a store the whole attempt is known: its
result is a function of what the store has when it begins (`Store.online`, `Store.offline`),
whatever the cache held, and it asks the questions `Store.onlineAsked` or just one
(`Locating.outcome_attemptOnline`, `Locating.outcome_attemptOffline`). -/

namespace ScanPlanner

/-! ## What happens besides the log -/

/-- The event is a note of the log. -/
def Event.isLogged : Event → Bool
  | .logged _ => true
  | _ => false

namespace Session

variable {ω : Type}

/-- What has happened, apart from the log. -/
def happened (s : Session ω) : List Event := s.trace.filter fun e => !e.isLogged

/-- An event that is no note has happened when it is recorded. -/
@[simp] theorem happened_record (s : Session ω) {e : Event} (h : e.isLogged = false) :
    (s.record e).happened = s.happened ++ [e] := by
  unfold happened record
  rw [List.filter_append, List.filter_singleton, h]
  rfl

/-- What is noted has not happened. -/
@[simp] theorem happened_log (s : Session ω) (notes : List Note) :
    (s.log notes).happened = s.happened := by
  unfold happened log
  rw [List.filter_append, List.append_right_eq_self, List.filter_eq_nil_iff]
  intro e he
  obtain ⟨n, -, rfl⟩ := List.mem_map.mp he
  simp [Event.isLogged]

/-- From `s` to `s'` the events happened and no others. Nothing else has changed but the cache, and
that is in order if it was. -/
structure Consulted (events : List Event) (s s' : Session (Cached ω)) : Prop where
  backing : s'.world.backing = s.world.backing
  known : s.world.known.WellFormed → s'.world.known.WellFormed
  capacity : s'.world.known.capacity = s.world.known.capacity
  drawn : s'.drawn = s.drawn
  level : s'.level = s.level
  happened : s'.happened = s.happened ++ events

/-- What was asked first, and then more, was asked in that order. Whole attempts are put together
from their questions with this. -/
theorem Consulted.trans {es es' : List Event} {s s' s'' : Session (Cached ω)}
    (h : Consulted es s s') (h' : Consulted es' s' s'') : Consulted (es ++ es') s s'' where
  backing := h'.backing.trans h.backing
  known := h'.known ∘ h.known
  capacity := h'.capacity.trans h.capacity
  drawn := h'.drawn.trans h.drawn
  level := h'.level.trans h.level
  happened := by rw [h'.happened, h.happened, List.append_assoc]

/-- Notes do not change what was asked: of all that is recorded, the notes are what does not count
as having happened. -/
theorem Consulted.log {es : List Event} {s s' : Session (Cached ω)} (h : Consulted es s s')
    (notes : List Note) : Consulted es s (s'.log notes) where
  backing := h.backing
  known := h.known
  capacity := h.capacity
  drawn := h.drawn
  level := h.level
  happened := by rw [happened_log, h.happened]

end Session

namespace Step

variable {ω α : Type}

/-- A collaborator changes the world and leaves notes, and nothing else happens. -/
theorem exists_outcome_perform (effect : Effect ω α) (s : Session ω) :
    ∃ s', outcome (perform effect) s = ((outcome effect ⟨s.world, []⟩).1, s') ∧
      s'.world = (outcome effect ⟨s.world, []⟩).2.world ∧ s'.level = s.level ∧
      s'.drawn = s.drawn ∧ s'.happened = s.happened :=
  ⟨_, outcome_perform effect s, rfl, rfl, rfl, Session.happened_log _ _⟩

/-- A question that leaves the world behind the cache alone is recorded, and nothing else
happens. -/
theorem outcome_ask_consulted {effect : Effect (Cached ω) α} {s : Session (Cached ω)} {r : Result α}
    {known : Lru TableId (List Tablet)} {notes : List Note} (q : Question) (about : TableId)
    (h : outcome effect ⟨s.world, []⟩ = (r, ⟨⟨s.world.backing, known⟩, notes⟩))
    (hw : s.world.known.WellFormed → known.WellFormed)
    (hc : known.capacity = s.world.known.capacity) :
    ∃ s', outcome (ask q about effect) s = (r, s') ∧ s'.world = ⟨s.world.backing, known⟩ ∧
      s.Consulted [.asked q about] s' := by
  obtain ⟨s', run, world, level, drawn, happened⟩ :=
    exists_outcome_perform effect (s.record (.asked q about))
  -- the question is recorded before the effect begins, and the world is still the same then
  have same : (s.record (.asked q about)).world = s.world := rfl
  rw [same, h] at run world
  refine ⟨s', run, world, ?_⟩
  exact {
    backing := by rw [world]
    known := by rwa [world]
    capacity := by rwa [world]
    drawn := drawn
    level := level
    happened := happened.trans (Session.happened_record s rfl) }

end Step

/-! ## Attempts with any catalog -/

section

variable {ω : Type} {cat : Catalog ω} {id : TableId} {ranges : List KeyRange}

/-- Resolving ranges asks for the tablets, and tells what is located among them; a note on the
others is all that it leaves besides. -/
theorem Locator.outcome_resolve {scene scene' : Scene (Cached ω)} {found : Result (List Tablet)}
    (asked : outcome (Locator.tablets cat id) scene = (found, scene')) (ranges : List KeyRange) :
    ∃ notes, outcome ((Locator.cached cat).resolve id ranges) scene =
      (found >>= fun tablets => Located.ofTablets tablets ranges, ⟨scene'.world, notes⟩) := by
  simp only [Locator.cached, outcome_bind]
  rw [asked]
  cases found with
  | error f => exact ⟨scene'.notes, rfl⟩
  | ok tablets =>
    simp only [Effect.outcome_ofResult, Result.bind_ok]
    cases Located.ofTablets tablets ranges with
    | error f => exact ⟨scene'.notes, rfl⟩
    | ok l =>
      simp only
      -- an incomplete answer is noted in the log, which is all that differs
      cases l.isComplete with
      | true => exact ⟨scene'.notes, rfl⟩
      | false => exact ⟨_, rfl⟩

/-- What is located was located in some tablets. It does not matter here whether they come from the
cache or from the catalog. -/
theorem Locator.ofTablets_of_resolve {scene scene' : Scene (Cached ω)} {l : Located}
    (h : outcome ((Locator.cached cat).resolve id ranges) scene = (.ok l, scene')) :
    ∃ tablets, Located.ofTablets tablets ranges = .ok l := by
  have asked : outcome (Locator.tablets cat id) scene = (_, _) := rfl
  obtain ⟨_, run⟩ := Locator.outcome_resolve asked ranges
  rw [h] at run
  obtain ⟨tablets, -, located⟩ := Result.bind_eq_ok.mp (congrArg Prod.fst run).symm
  exact ⟨tablets, located⟩

/-- What is assigned for an offline table was assigned to some tablets. An attempt that gives no
binning is not one of these: it ends at an obstacle. -/
theorem Offline.ofTablets_of_bin {scene scene' : Scene ω} {b : Binning}
    (h : outcome (Offline.bin cat id ranges) scene = (.ok (some b), scene')) :
    ∃ tablets, Offline.ofTablets tablets ranges = .ok b := by
  unfold Offline.bin at h
  obtain ⟨state, _, -, h⟩ := outcome_bind_ok.mp h
  -- only an offline table is binned, and only without an obstacle there is a binning
  cases state with
  | online =>
    obtain ⟨_, _, h, -⟩ := outcome_bind_ok.mp h
    cases h
  | offline =>
    obtain ⟨tablets, _, -, h⟩ := outcome_bind_ok.mp h
    refine ⟨tablets, ?_⟩
    cases hb : Offline.ofTablets tablets ranges with
    | ok binning =>
      simp only [hb] at h
      cases h
      rfl
    | error e =>
      simp only [hb] at h
      cases e with
      | failed why => cases h
      | obstacle why =>
        obtain ⟨_, _, -, h⟩ := outcome_bind_ok.mp h
        cases h

end

namespace Locating

section

variable {ω : Type} {c : Collaborators (Cached ω)} {kind : BackendKind} {cat : Catalog ω}
  {id : TableId} {ranges : List KeyRange} {s s' : Session (Cached ω)} {b : Binning}

/-- An attempt that gives a binning has located all ranges, and spread them over the tablets that
cover them, on the nodes that host these. -/
theorem attemptOnline_spread (hc : c.backend = .ofCatalog kind cat)
    (h : outcome (attemptOnline c id ranges) s = (.ok (some b), s')) :
    ∃ tablets, (∀ r ∈ ranges, Located.isLocated tablets r = true) ∧
      b = .spread Tablet.host tablets ranges := by
  unfold attemptOnline at h
  obtain ⟨_, _, -, h⟩ := outcome_bind_ok.mp h
  obtain ⟨located, _, hlocated, h⟩ := outcome_bind_ok.mp h
  rw [Step.outcome_ask, hc] at hlocated
  obtain ⟨_, hresolve, -⟩ := Step.perform_ok hlocated
  obtain ⟨tablets, htablets⟩ := Locator.ofTablets_of_resolve hresolve
  refine ⟨tablets, ?_⟩
  cases complete : located.isComplete with
  | true =>
    simp only [complete, if_true] at h
    cases h
    exact Located.spread_of_isComplete htablets complete
  | false =>
    -- an attempt that goes on gives no binning
    exfalso
    simp only [complete, Bool.false_eq_true, if_false] at h
    obtain ⟨there, _, -, h⟩ := outcome_bind_ok.mp h
    cases there with
    | false =>
      obtain ⟨_, _, h, -⟩ := outcome_bind_ok.mp h
      cases h
    | true =>
      obtain ⟨state, _, -, h⟩ := outcome_bind_ok.mp h
      cases state with
      | offline =>
        obtain ⟨_, _, h, -⟩ := outcome_bind_ok.mp h
        cases h
      | online =>
        obtain ⟨_, _, -, h⟩ := outcome_bind_ok.mp h
        cases h

/-- An attempt on an offline table that gives a binning has spread the ranges over released tablets,
on the nodes that hosted these last. -/
theorem attemptOffline_spread (hc : c.backend = .ofCatalog kind cat)
    (h : outcome (attemptOffline c id ranges) s = (.ok (some b), s')) :
    ∃ tablets, (∀ r ∈ ranges, Offline.isReleased tablets r = true) ∧
      b = .spread Offline.lastAddress tablets ranges := by
  unfold attemptOffline at h
  obtain ⟨found, _, hfound, h⟩ := outcome_bind_ok.mp h
  -- without a binning the attempt would have ended with none
  have given : found = some b := by
    cases found with
    | some b' =>
      cases h
      rfl
    | none =>
      obtain ⟨_, _, -, h⟩ := outcome_bind_ok.mp h
      cases h
  rw [given, Step.outcome_ask, hc] at hfound
  obtain ⟨scene, hbin, -⟩ := Step.perform_ok hfound
  have hbin : outcome (Locator.behind (Offline.bin cat id ranges)) ⟨_, []⟩ = _ := hbin
  unfold Locator.behind at hbin
  rw [Effect.outcome_within, Prod.mk.injEq] at hbin
  obtain ⟨tablets, htablets⟩ := Offline.ofTablets_of_bin (Prod.ext hbin.1 rfl)
  exact ⟨tablets, Offline.ofTablets_eq_ok htablets⟩

end

end Locating

/-! ## What a store decides -/

namespace Store

variable {ω : Type} (store : Store ω)

/-- The ranges that can be located now, through a cache of some capacity. It is what a locator that
remembers tablets answers just after the table has been invalidated. -/
def located (capacity : Int) (w : ω) (id : TableId) (ranges : List KeyRange) : Result Located := do
  Located.ofTablets (← store.tabletsVia capacity w id) ranges

/-- What an attempt to locate ranges of an online table comes to, as a function of the store. Only
when ranges are left is it asked whether the table is still there, and then whether it is online; if
it is, the attempt is without a result and another one follows. -/
def online (capacity : Int) (w : ω) (id : TableId) (ranges : List KeyRange) :
    Result (Option Binning) := do
  let located ← store.located capacity w id ranges
  if located.isComplete then return some located.binning
  if !(← store.tableExists w id) then throw (.refused (.tableDeleted id))
  if (← store.tableState w id) = .offline then throw (.refused (.tableOffline id))
  return none

/-- What is asked in an attempt to locate ranges of an online table. -/
def onlineAsked (capacity : Int) (w : ω) (id : TableId) (ranges : List KeyRange) : List Event :=
  [.asked .invalidate id, .asked .resolve id] ++
    match store.located capacity w id ranges with
    | .error _ => []
    | .ok located =>
      if located.isComplete then []
      else [.asked .tableExists id] ++
        match store.tableExists w id with
        | .ok true => [.asked .tableState id]
        | _ => []

/-- What an attempt to assign ranges of an offline table comes to, as a function of the store. An
obstacle, such as a tablet that is still hosted, leaves the attempt without a result. -/
def offline (w : ω) (id : TableId) (ranges : List KeyRange) : Result (Option Binning) := do
  if (← store.tableState w id) ≠ .offline then throw (.refused (.tableOnline id))
  match Offline.ofTablets (← store.tablets w id) ranges with
  | .ok binning => return some binning
  | .error (.failed why) => throw why
  | .error (.obstacle _) => return none

/-! ### Questions to a store -/

variable {id : TableId} {ranges : List KeyRange}

/-- A question that only reads the store is answered by the store as it is. The cache is passed by,
so the answer is the same whatever the cache has. -/
theorem outcome_ask_behind {α : Type} (q : Question) (id : TableId) (question : ω → Result α)
    (s : Session (Cached ω)) :
    ∃ s', outcome (Step.ask q id (Locator.behind (Effect.ask question))) s =
        (question s.world.backing, s') ∧ s.Consulted [.asked q id] s' := by
  have answer : outcome (Locator.behind (Effect.ask question)) ⟨s.world, []⟩ =
      (question s.world.backing, ⟨⟨s.world.backing, s.world.known⟩, []⟩) := by
    unfold Locator.behind
    rw [Effect.outcome_within, Effect.outcome_ask]
  obtain ⟨s', run, -, consulted⟩ := Step.outcome_ask_consulted q id answer (fun h => h) rfl
  exact ⟨s', run, consulted⟩

/-- Invalidating a table takes it out of the cache, and that is all. The id has to be one that can
be looked up, as the cache looks it up. -/
theorem outcome_ask_invalidate (c : Catalog ω) (hid : id.isScalar = true) (s : Session (Cached ω)) :
    ∃ s', outcome (Step.ask .invalidate id ((Locator.cached c).invalidate id)) s = (.ok (), s') ∧
      s'.world = ⟨s.world.backing, s.world.known.erase id⟩ ∧
      s.Consulted [.asked .invalidate id] s' := by
  have answer : outcome ((Locator.cached c).invalidate id) ⟨s.world, []⟩ =
      (.ok (), ⟨⟨s.world.backing, s.world.known.erase id⟩, []⟩) := by
    simp only [Locator.cached, hid, Bool.not_true, Bool.false_eq_true, if_false, outcome_bind,
      Effect.outcome_world, Effect.outcome_setWorld]
  exact Step.outcome_ask_consulted .invalidate id answer (fun h => Lru.wellFormed_erase h id) rfl

/-- Resolving ranges of a table that the cache has forgotten. What it gives is told by the store
alone; of the cache only its capacity counts, because a cache with no room fails to remember. -/
theorem outcome_resolve (ranges : List KeyRange) (hid : id.isScalar = true) (backing : ω)
    {known : Lru TableId (List Tablet)} (hf : known.find? id = none) (hw : known.WellFormed)
    (notes : List Note) :
    ∃ known' notes', outcome ((Locator.cached store.catalog).resolve id ranges)
        ⟨⟨backing, known⟩, notes⟩ =
        (store.located known.capacity backing id ranges, ⟨⟨backing, known'⟩, notes'⟩) ∧
      known'.WellFormed ∧ known'.capacity = known.capacity := by
  obtain ⟨known', asked, hw', hc⟩ := store.outcome_tablets backing notes hid hf hw
  obtain ⟨notes', run⟩ := Locator.outcome_resolve asked ranges
  exact ⟨known', notes', run, hw', hc⟩

/-- Resolving ranges of a table that the cache has forgotten locates them in what the store has.
Being asked within a plan adds one question to what happened, and notes. -/
theorem outcome_ask_resolve (ranges : List KeyRange) (hid : id.isScalar = true)
    {s : Session (Cached ω)} (hf : s.world.known.find? id = none) (hw : s.world.known.WellFormed) :
    ∃ s', outcome (Step.ask .resolve id ((Locator.cached store.catalog).resolve id ranges)) s =
        (store.located s.world.known.capacity s.world.backing id ranges, s') ∧
      s.Consulted [.asked .resolve id] s' := by
  obtain ⟨known, notes, run, hw', hc⟩ :=
    store.outcome_resolve ranges hid s.world.backing hf hw []
  obtain ⟨s', asked, -, consulted⟩ :=
    Step.outcome_ask_consulted .resolve id run (fun _ => hw') hc
  exact ⟨s', asked, consulted⟩

/-- Assigning ranges of an offline table reads the store and leaves it as it is. Whether the result
is a binning, nothing or a failure, only notes are added. -/
theorem outcome_bin (id : TableId) (ranges : List KeyRange) (w : ω) (notes : List Note) :
    ∃ notes', outcome (Offline.bin store.catalog id ranges) ⟨w, notes⟩ =
      (store.offline w id ranges, ⟨w, notes'⟩) := by
  unfold Offline.bin offline
  simp only [catalog, outcome_bind, Effect.outcome_ask]
  -- the state decides whether tablets are read at all, and an obstacle leaves a note and no binning
  cases store.tableState w id with
  | error f => exact ⟨notes, rfl⟩
  | ok state =>
    cases state with
    | online => exact ⟨notes, rfl⟩
    | offline =>
      simp only [ne_eq, not_true_eq_false, if_false, outcome_bind, Effect.outcome_ask,
        Result.bind_ok]
      cases store.tablets w id with
      | error f => exact ⟨notes, rfl⟩
      | ok tablets =>
        simp only [Result.bind_ok]
        cases Offline.ofTablets tablets ranges with
        | ok b => exact ⟨notes, rfl⟩
        | error e =>
          cases e with
          | failed why => exact ⟨notes, rfl⟩
          | obstacle why => exact ⟨_, rfl⟩

end Store

/-! ### Attempts -/

namespace Locating

variable {ω : Type} {store : Store ω} {c : Collaborators (Cached ω)} {kind : BackendKind}
  {id : TableId} {ranges : List KeyRange}

/-- What an attempt decides is told by the store alone. The cache has no part in it: it forgets the
table first. -/
theorem outcome_attemptOnline (hc : c.backend = .ofCatalog kind store.catalog)
    (ranges : List KeyRange) (hid : id.isScalar = true) {s : Session (Cached ω)}
    (hw : s.world.known.WellFormed) :
    ∃ s', outcome (attemptOnline c id ranges) s =
        (store.online s.world.known.capacity s.world.backing id ranges, s') ∧
      s.Consulted (store.onlineAsked s.world.known.capacity s.world.backing id ranges) s' := by
  obtain ⟨s₁, run₁, world₁, cons₁⟩ := Store.outcome_ask_invalidate store.catalog hid s
  have forgotten : s₁.world.known.find? id = none := by
    rw [world₁]
    exact Lru.find?_erase_self hw id
  obtain ⟨s₂, run₂, cons₂⟩ :=
    store.outcome_ask_resolve ranges hid forgotten (cons₁.known hw)
  rw [cons₁.capacity, cons₁.backing] at run₂
  have asked₂ := cons₁.trans cons₂
  have back₂ : s₂.world.backing = s.world.backing := asked₂.backing
  -- each further question is asked only if the answers so far leave the attempt open
  unfold attemptOnline Store.online Store.onlineAsked
  rw [hc]
  simp only [Backend.ofCatalog, outcome_bind, run₁, run₂]
  cases store.located s.world.known.capacity s.world.backing id ranges with
  | error f => exact ⟨s₂, rfl, asked₂⟩
  | ok located =>
    cases hl : located.isComplete with
    | true =>
      simp only [hl, if_true, Result.bind_ok]
      exact ⟨s₂, rfl, asked₂⟩
    | false =>
      obtain ⟨s₃, run₃, cons₃⟩ :=
        Store.outcome_ask_behind .tableExists id (store.tableExists · id) s₂
      rw [back₂] at run₃
      have run₃ : outcome (Step.ask .tableExists id
          ((Locator.cached store.catalog).tableExists id)) s₂ = _ := run₃
      have asked₃ := asked₂.trans cons₃
      simp only [hl, Bool.false_eq_true, if_false, Result.bind_ok, outcome_bind, run₃]
      cases store.tableExists s.world.backing id with
      | error f => exact ⟨s₃, rfl, asked₃⟩
      | ok there =>
        cases there with
        | false => exact ⟨s₃, rfl, asked₃⟩
        | true =>
          obtain ⟨s₄, run₄, cons₄⟩ :=
            Store.outcome_ask_behind .tableState id (store.tableState · id) s₃
          rw [asked₃.backing] at run₄
          have run₄ : outcome (Step.ask .tableState id
              ((Locator.cached store.catalog).tableState id)) s₃ = _ := run₄
          have asked₄ := asked₃.trans cons₄
          simp only [Bool.not_true, Bool.false_eq_true, if_false, Result.bind_ok, outcome_bind,
            run₄]
          rw [List.append_assoc, List.append_assoc] at asked₄
          cases store.tableState s.world.backing id with
          | error f => exact ⟨s₄, rfl, asked₄⟩
          | ok state =>
            cases state with
            | offline => exact ⟨s₄, rfl, asked₄⟩
            | online => exact ⟨_, rfl, asked₄.log _⟩

/-- An attempt on an offline table asks one question, which the store answers. The answer is the
verdict of the attempt, failures included. -/
theorem outcome_attemptOffline (hc : c.backend = .ofCatalog kind store.catalog)
    (s : Session (Cached ω)) :
    ∃ s', outcome (attemptOffline c id ranges) s =
        (store.offline s.world.backing id ranges, s') ∧
      s.Consulted [.asked .binOffline id] s' := by
  obtain ⟨notes, run⟩ := store.outcome_bin id ranges s.world.backing []
  -- the question goes past the cache to the store
  have answer : outcome (Locator.behind (Offline.bin store.catalog id ranges)) ⟨s.world, []⟩ =
      (store.offline s.world.backing id ranges,
        ⟨⟨s.world.backing, s.world.known⟩, notes⟩) := by
    unfold Locator.behind
    rw [Effect.outcome_within, run]
  obtain ⟨s₁, run₁, -, cons₁⟩ :=
    Step.outcome_ask_consulted .binOffline id answer (fun h => h) rfl
  unfold attemptOffline
  rw [hc]
  simp only [Backend.ofCatalog, outcome_bind, run₁]
  cases store.offline s.world.backing id ranges with
  | error f => exact ⟨s₁, rfl, cons₁⟩
  | ok found =>
    cases found with
    | some b => exact ⟨s₁, rfl, cons₁⟩
    | none => exact ⟨_, rfl, cons₁.log _⟩

end Locating

end ScanPlanner
