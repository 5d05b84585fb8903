import ScanPlanner.Proofs.Locality
import ScanPlanner.Proofs.Lookups

/-!
# Tables apart from one another

As long as no pause is made the store stays as it is, and what a step of planning ends with is told
by the store alone: not by what the cache holds, and not by what happened before (`Step.Gives`). So
the splits of a table that is planned without a pause when it stands alone are its splits in any job
with such tables, whatever their order (`Planning.plan_of_alone`).
-/

namespace ScanPlanner

variable {ω α β : Type}

/-! ## Sessions in front of a store -/

/-- The session is in front of a store, with a cache in order that has the given size. Nothing is
said of what the cache holds. -/
structure Session.InFront (w : ω) (capacity : Int) (s : Session (Cached ω)) : Prop where
  backing : s.world.backing = w
  known : s.world.known.WellFormed
  capacity : s.world.known.capacity = capacity

section

variable {w : ω} {capacity : Int} {s s' : Session (Cached ω)}

/-- Only the world of a session says what it is in front of: the log, the draws and the trace do
not. -/
theorem Session.InFront.of_world (h : s.InFront w capacity) (same : s'.world = s.world) :
    s'.InFront w capacity := by
  refine ⟨?_, ?_, ?_⟩
  · rw [same]
    exact h.backing
  · rw [same]
    exact h.known
  · rw [same]
    exact h.capacity

theorem Session.InFront.consulted (h : s.InFront w capacity) {events : List Event}
    (consulted : s.Consulted events s') : s'.InFront w capacity :=
  ⟨consulted.backing.trans h.backing, consulted.known h.known,
    consulted.capacity.trans h.capacity⟩

end

namespace Step

/-- In every session in front of the store the step ends with the result. It makes no pause and
leaves the store as it is. -/
def Gives (w : ω) (capacity : Int) (r : Result α) (x : Step (Cached ω) α) : Prop :=
  ∀ s, s.InFront w capacity →
    ∃ s', outcome x s = (r, s') ∧ s'.InFront w capacity ∧ s'.pauses = s.pauses

variable {w : ω} {capacity : Int} {r r' : Result α} {x : Step (Cached ω) α}
  {g : α → Step (Cached ω) β} {a : α}

/-- The result is found in any one run. -/
theorem Gives.eq_of_outcome (h : Gives w capacity r x) {s s' : Session (Cached ω)}
    (front : s.InFront w capacity) (ran : outcome x s = (r', s')) :
    r = r' ∧ s'.InFront w capacity := by
  obtain ⟨t, run, front', -⟩ := h s front
  rw [ran, Prod.mk.injEq] at run
  obtain ⟨rfl, rfl⟩ := run
  exact ⟨rfl, front'⟩

/-- After a value that the store tells, the rest ends with what the store tells. Between the two
nothing happens to the store. -/
theorem Gives.bind (hx : Gives w capacity (.ok a) x) {r : Result β}
    (hg : Gives w capacity r (g a)) : Gives w capacity r (x >>= g) := by
  intro s front
  obtain ⟨s₁, run₁, front₁, pauses₁⟩ := hx s front
  obtain ⟨s₂, run₂, front₂, pauses₂⟩ := hg s₁ front₁
  refine ⟨s₂, ?_, front₂, pauses₂.trans pauses₁⟩
  rw [outcome_bind, run₁]
  exact run₂

/-- After a failure that the store tells nothing follows. -/
theorem Gives.bind_error {f : Failure} (hx : Gives w capacity (.error f) x) :
    Gives w capacity (.error f) (x >>= g) := by
  intro s front
  obtain ⟨s₁, run₁, after⟩ := hx s front
  refine ⟨s₁, ?_, after⟩
  rw [outcome_bind, run₁]

theorem gives_pure (a : α) : Gives w capacity (.ok a) (pure a) :=
  fun s front => ⟨s, rfl, front, rfl⟩

theorem gives_throw (f : Failure) : Gives w capacity (.error f) (throw f : Step (Cached ω) α) :=
  fun s front => ⟨s, rfl, front, rfl⟩

theorem gives_ofResult (r : Result α) : Gives w capacity r (ofResult r) :=
  fun s front => ⟨s, outcome_ofResult r s, front, rfl⟩

theorem gives_note (severity : Severity) (source : Source) (text : String) :
    Gives w capacity (.ok ()) (note severity source text) :=
  fun s front => ⟨_, rfl, front.of_world rfl, View.seen_log (v := View.pauses) s _⟩

/-- What a table is planned with is not touched by how its failures are reported. -/
theorem Gives.forTable (table : TableName) (hx : Gives w capacity (.ok a) x) :
    Gives w capacity (.ok a) (forTable table x) := by
  intro s front
  obtain ⟨s₁, run₁, after⟩ := hx s front
  refine ⟨s₁, ?_, after⟩
  unfold Step.forTable
  rw [outcome_tryCatch, run₁]

/-- The level of the log does not matter to what the store tells. -/
theorem Gives.atLevel (level : Option Int) (hx : Gives w capacity r x) :
    Gives w capacity r (atLevel level x) := by
  intro s front
  obtain ⟨s₁, run₁, front₁, pauses₁⟩ :=
    hx { s with level := level.getD s.level } (front.of_world rfl)
  refine ⟨{ s₁ with level := s.level }, ?_, front₁.of_world rfl, pauses₁⟩
  rw [outcome_atLevel, run₁]

/-- What only asks about tables, and has a result that the store tells, ends with that result in
every session on the same store. -/
theorem gives_of_consulted (unpaused : Shows View.pauses (fun _ => False) x)
    (asks : ∀ s, s.InFront w capacity →
      ∃ events s', outcome x s = (r, s') ∧ s.Consulted events s') :
    Gives w capacity r x := by
  intro s front
  obtain ⟨events, s', run, consulted⟩ := asks s front
  have pauses := unpaused.seen_eq s
  rw [run] at pauses
  exact ⟨s', run, front.consulted consulted, pauses⟩

/-- A step is related with itself if the store tells what it ends with. -/
def told (w : ω) (capacity : Int) : Congruence (Step (Cached ω)) (Step (Cached ω)) where
  Rel x _ := ∃ r, Gives w capacity r x
  pure a := ⟨_, gives_pure a⟩
  throw f := ⟨_, gives_throw f⟩
  bind {_ _ _ _ _ _} hx hg := by
    obtain ⟨f | a, hx⟩ := hx
    · exact ⟨_, hx.bind_error⟩
    · obtain ⟨r, hr⟩ := hg a
      exact ⟨r, hx.bind hr⟩

end Step

/-! ## Locating -/

namespace Locating

variable {store : Store ω} {c : Collaborators (Cached ω)} {kind : BackendKind} {w : ω}
  {capacity : Int} {b : Backoff} {binning : Binning} {schedule rest : Schedule (Cached ω)}
  {s s' : Session (Cached ω)}

/-- An attempt that decides by the state of the store gives its verdict on that state each time. It
makes no pause, so the state is the same throughout. -/
theorem gives_of_decides {attempt : Step (Cached ω) (Option Binning)}
    {verdict : ω → Result (Option Binning)} {asked : ω → List Event}
    (decides : Decides attempt capacity verdict asked)
    (unpaused : Step.Shows View.pauses (fun _ => False) attempt) :
    Step.Gives w capacity (verdict w) attempt := by
  refine Step.gives_of_consulted unpaused fun s front => ?_
  obtain ⟨s', run, consulted⟩ := decides s front.known front.capacity
  rw [front.backing] at run
  exact ⟨_, s', run, consulted⟩

/-- If one run of attempts makes no pause, none does: its first attempt found a binning, and so does
the first attempt of any other run on the same store. -/
theorem gives_retry {attempt : Step (Cached ω) (Option Binning)} (grows : attempt.Grows)
    {r : Result (Option Binning)} (gives : Step.Gives w capacity r attempt) {count : Nat}
    (front : s.InFront w capacity)
    (ran : outcome (retry c b attempt count schedule) s = (.ok (binning, rest), s'))
    (none : s'.pauses = []) (schedule' : Schedule (Cached ω)) :
    Step.Gives w capacity (.ok (binning, schedule')) (retry c b attempt count schedule') := by
  -- without a pause the first attempt is the only one, and it is the same one in every session
  obtain ⟨rfl, -⟩ := gives.eq_of_outcome front (Step.attempt_of_retry grows ran none)
  rw [Step.retry_eq]
  exact gives.bind (Step.gives_pure _)

/-- If ranges are located without a pause once, they are located so each time, with the same binning
and whatever the schedule is. -/
theorem gives_locate (hc : c.backend = .ofCatalog kind store.catalog) {id : TableId}
    {ranges : List KeyRange} {offline : Bool} (front : s.InFront w capacity)
    (ran : outcome (locate c b id ranges offline schedule) s = (.ok (binning, rest), s'))
    (none : s'.pauses = []) (schedule' : Schedule (Cached ω)) :
    Step.Gives w capacity (.ok (binning, schedule'))
      (locate c b id ranges offline schedule') := by
  cases offline with
  | true =>
    have gives : Step.Gives w capacity _ (attemptOffline c id ranges) :=
      gives_of_decides (decides_attemptOffline hc id ranges capacity)
        (Step.shows_attemptOffline c id ranges)
    exact gives_retry (Step.grows_attemptOffline c id ranges) gives front ran none schedule'
  | false =>
    -- an attempt that was made says that the table can be looked up
    obtain ⟨_, _, attempt⟩ := exists_attempt_of_retry ran
    have scalar := isScalar_of_attemptOnline hc attempt
    have gives : Step.Gives w capacity _ (attemptOnline c id ranges) :=
      gives_of_decides (decides_attemptOnline hc scalar ranges capacity)
        (Step.shows_attemptOnline c id ranges)
    exact gives_retry (Step.grows_attemptOnline c id ranges) gives front ran none schedule'

end Locating

/-! ## Making splits -/

section

variable {c : Collaborators (Cached ω)} {lookup : String → Result Json}
  (names : ∀ host, c.canonical host = Effect.ofResult (lookup host)) (w : ω) (capacity : Int)
include names

/-- A lookup of a host ends with a name that the host tells, wherever the session is. -/
theorem HostBook.told_lookUp (host : String) :
    (Step.told w capacity).pointwise.Rel (lookUp c host) (lookUp c host) := by
  intro book
  refine ⟨do let name ← lookup host; return (name, ← Lru.insert book host name), fun s front => ?_⟩
  obtain ⟨s', run, world, -, happened⟩ := outcome_lookUp c host book s
  rw [names, Effect.outcome_ofResult] at run world
  refine ⟨s', run, front.of_world world, ?_⟩
  rw [Session.pauses_eq, Session.pauses_eq, happened, List.filterMap_append]
  exact List.append_nil _

/-- Splits are made from the binning and the names of hosts alone, so the store tells them. -/
theorem Splitting.told_make (f : SplitFrame) (b : Binning) (scan : TableScan) (size : Int) :
    (Step.told w capacity).Rel (make c f b scan size) (make c f b scan size) := by
  have note (severity : Severity) (source : Source) (text : String) :
      (Step.told w capacity).Rel (Step.note severity source text)
        (Step.note severity source text) := ⟨_, Step.gives_note severity source text⟩
  exact (Step.told w capacity).make note (HostBook.told_lookUp names w capacity) f b scan size

end

/-! ## Planning -/

namespace Planning

section

variable {store : Store ω} {c : Collaborators (Cached ω)} {kind : BackendKind}
  (hc : c.backend = .ofCatalog kind store.catalog) {lookup : String → Result Json}
  (names : ∀ host, c.canonical host = Effect.ofResult (lookup host)) {w : ω} {capacity : Int}
  {authorizations : List Json}
include hc names

omit names in
/-- The id of a table is what the store has for its name. -/
theorem gives_tableId (w : ω) (capacity : Int) (table : TableName) :
    Step.Gives w capacity (store.tableId w table)
      (Step.ask .tableId table (c.backend.locator.tableId table)) := by
  refine Step.gives_of_consulted (Step.shows_ask _ _ _) fun s front => ?_
  rw [hc, ← front.backing]
  exact ⟨_, Store.outcome_ask_behind .tableId table (store.tableId · table) s⟩

/-- A table that is planned without a pause once always is, and has the same splits each time.
Neither the schedule nor what the cache or the host book has matters. -/
theorem gives_planTable {job : Job} {size : Int} {table : TableName} {scan : TableScan}
    {schedule rest : Schedule (Cached ω)} {s s' : Session (Cached ω)} {ss : List Split}
    (front : s.InFront w capacity)
    (ran : outcome (planTable c job authorizations size table scan schedule) s =
      (.ok (ss, rest), s'))
    (none : s'.pauses = []) (schedule' : Schedule (Cached ω)) :
    Step.Gives w capacity (.ok (ss, schedule'))
      (planTable c job authorizations size table scan schedule') := by
  obtain ⟨checked, id, ranges, pauses, binning, s₁, s₂, s₃, asked, normalized, given, world₂,
    located, made⟩ := planTable_eq_ok ran
  have asks := gives_tableId hc w capacity table
  obtain ⟨known, front₁⟩ := asks.eq_of_outcome front asked
  rw [known] at asks
  -- no pause has been made when the ranges are located
  have grown := Step.grows_make c ⟨table, id, Snapshot.ofScan scan authorizations⟩ binning scan size
  have unpaused : s₃.pauses = [] := by
    refine Session.pauses_eq_nil ?_ none
    have grown := grown s₃
    rwa [made] at grown
  have front₂ : s₂.InFront w capacity := front₁.of_world world₂
  have locates := Locating.gives_locate hc front₂ located unpaused
  obtain ⟨-, front₃⟩ := (locates schedule).eq_of_outcome front₂ located
  obtain ⟨r, makes⟩ := Splitting.told_make names w capacity
    ⟨table, id, Snapshot.ofScan scan authorizations⟩ binning scan size
  obtain ⟨rfl, -⟩ := makes.eq_of_outcome front₃ made
  rw [planTable_eq]
  refine .bind (a := ()) ?_ (.forTable table (asks.bind ?_))
  · rw [checked]
    exact Step.gives_pure ()
  · unfold planWithId
    rw [normalized, given]
    refine (Step.gives_ofResult _).bind ?_
    refine (Step.gives_note _ _ _).bind ?_
    refine (Step.gives_ofResult _).bind ?_
    refine (locates schedule').bind ?_
    exact makes.bind (Step.gives_pure _)

end

section

variable {c : Collaborators (Cached ω)} {w : ω} {capacity : Int} {job : Job}
  {authorizations : List Json} {size : Int} {block : TableName × TableScan → List Split}

/-- Tables each of which gives its splits in front of the store give them one after the other, in
the order of the tables. -/
theorem gives_planTables {scans : List (TableName × TableScan)}
    (each : ∀ entry ∈ scans, ∀ schedule, Step.Gives w capacity (.ok (block entry, schedule))
      (planTable c job authorizations size entry.1 entry.2 schedule))
    (schedule : Schedule (Cached ω)) :
    Step.Gives w capacity (.ok (scans.flatMap block))
      (planTables c job authorizations size scans schedule) := by
  -- induction on the tables: each leaves the store as it is for the next one
  induction scans generalizing schedule with
  | nil => exact Step.gives_pure _
  | cons entry scans ih =>
    obtain ⟨first, others⟩ := List.forall_mem_cons.mp each
    unfold planTables
    refine (first schedule).bind ?_
    exact (ih others schedule).bind (Step.gives_pure _)

variable (job) in
/-- A job of such tables gives their splits: its settings can be read, and the note at its end
changes nothing. -/
theorem gives_plan {level : Option Int} {value : Value} (some : job.scans ≠ [])
    (levelled : job.settings.logLevel .none = .ok level)
    (sized : job.settings.hostBookSize .none = .ok (value, size))
    (each : ∀ entry ∈ job.scans, ∀ schedule,
      Step.Gives w capacity (.ok (block entry, schedule))
        (planTable c job authorizations size entry.1 entry.2 schedule))
    (schedule : Schedule (Cached ω)) :
    Step.Gives w capacity (.ok ⟨job.scans.flatMap block⟩)
      (plan c job authorizations schedule) := by
  unfold plan
  rw [if_neg (by simpa using some)]
  -- reading the settings looks at no table
  refine Step.Gives.bind (a := level) ?_ (Step.Gives.bind (a := (value, size)) ?_ ?_)
  · rw [levelled]
    exact Step.gives_pure level
  · rw [sized]
    exact Step.gives_pure (value, size)
  refine .atLevel level ?_
  refine (gives_planTables each schedule).bind ?_
  exact (Step.gives_note _ _ _).bind (Step.gives_pure _)

end

/-- The table has the splits when it is planned alone: in front of the store, and without a pause.
-/
def PlansAlone (c : Collaborators (Cached ω)) (settings : Settings) (authorizations : List Json)
    (w : ω) (capacity : Int) (entry : TableName × TableScan) (splits : List Split) : Prop :=
  ∃ schedule s s', s.InFront w capacity ∧
    outcome (plan c ⟨[entry], settings⟩ authorizations schedule) s = (.ok ⟨splits⟩, s') ∧
    s'.pauses = []

/-- A table that is planned alone has been planned with the settings of its job. What a plan of one
table does besides planning it is setting the level of the log. -/
theorem PlansAlone.exists_planTable {c : Collaborators (Cached ω)} {settings : Settings}
    {authorizations : List Json} {w : ω} {capacity : Int} {entry : TableName × TableScan}
    {splits : List Split} (h : PlansAlone c settings authorizations w capacity entry splits) :
    ∃ level value size, settings.logLevel .none = .ok level ∧
      settings.hostBookSize .none = .ok (value, size) ∧
      ∃ schedule s rest s', s.InFront w capacity ∧
        outcome (planTable c ⟨[entry], settings⟩ authorizations size entry.1 entry.2 schedule) s =
          (.ok (splits, rest), s') ∧ s'.pauses = [] := by
  obtain ⟨schedule, s, s', front, planned, none⟩ := h
  obtain ⟨level, value, size, s₁, notes, levelled, sized, run, rfl⟩ := exists_of_plan planned
  have run : outcome (planTables c ⟨[entry], settings⟩ authorizations size [entry] schedule)
      { s with level := level.getD s.level } = (.ok splits, s₁) := run
  unfold planTables at run
  obtain ⟨⟨head, rest⟩, s₂, first, run⟩ := outcome_bind_ok.mp run
  cases run
  rw [List.append_nil]
  -- the note about the plan is no pause
  have logged : (s₁.log notes).pauses = s₁.pauses := View.seen_log (v := View.pauses) s₁ notes
  have unpaused : (s₁.log notes).pauses = [] := none
  rw [logged] at unpaused
  have front : Session.InFront w capacity { s with level := level.getD s.level } :=
    front.of_world rfl
  exact ⟨level, value, size, levelled, sized, schedule, _, rest, s₁, front, first, unpaused⟩

section

variable {store : Store ω} {c : Collaborators (Cached ω)} {kind : BackendKind}
  (hc : c.backend = .ofCatalog kind store.catalog) {lookup : String → Result Json}
  (names : ∀ host, c.canonical host = Effect.ofResult (lookup host)) {w : ω} {capacity : Int}
  {authorizations : List Json}
include hc names

/-- Tables that are planned without a pause when they stand alone have the same splits in a job of
all of them, whatever the cache holds then. They come in the order of the tables, and those of one
table are found by its name. -/
theorem plan_of_alone {job : Job} (distinct : job.scans.Distinct) (some : job.scans ≠ [])
    {block : TableName × TableScan → List Split}
    (alone : ∀ entry ∈ job.scans,
      PlansAlone c job.settings authorizations w capacity entry (block entry))
    {scans : List (TableName × TableScan)} (permuted : scans.Perm job.scans)
    {s : Session (Cached ω)} (front : s.InFront w capacity) (schedule : Schedule (Cached ω)) :
    ∃ p s', outcome (plan c ⟨scans, job.settings⟩ authorizations schedule) s = (.ok p, s') ∧
      s'.pauses = s.pauses ∧ p.splits = scans.flatMap block ∧
      (∀ entry ∈ scans, p.splitsFor entry.1 = block entry) ∧
      (scans.flatMap fun entry => p.splitsFor entry.1) = p.splits := by
  obtain ⟨entry, configured⟩ := List.exists_mem_of_ne_nil _ some
  obtain ⟨level, value, size, levelled, sized, -⟩ := (alone entry configured).exists_planTable
  have each (entry : TableName × TableScan) (mem : entry ∈ scans) :
      (∀ split ∈ block entry, split.tableName = entry.1) ∧
        ∀ schedule, Step.Gives w capacity (.ok (block entry, schedule))
          (planTable c ⟨scans, job.settings⟩ authorizations size entry.1 entry.2 schedule) := by
    obtain ⟨_, _, size', -, sized', _, _, _, _, front, run, none⟩ :=
      (alone entry (permuted.mem_iff.mp mem)).exists_planTable
    rw [sized] at sized'
    -- alone and together the tables are planned with host books of one size, since the settings say
    -- it
    cases sized'
    exact ⟨(exists_mem_planTable_iff hc run).1, gives_planTable hc names front run none⟩
  have nonempty : scans ≠ [] := fun e => some (List.nil_perm.mp (e ▸ permuted))
  obtain ⟨s', planned, -, pauses⟩ := gives_plan ⟨scans, job.settings⟩ nonempty levelled sized
    (fun entry mem => (each entry mem).2) schedule s front
  have own : List.Forall₂ (fun (entry : TableName × TableScan) (ss : List Split) =>
      ss = block entry ∧ ∀ split ∈ ss, split.tableName = entry.1) scans (scans.map block) := by
    rw [List.forall₂_map_right_iff, List.forall₂_same]
    exact fun entry mem => ⟨rfl, (each entry mem).1⟩
  have found (entry : TableName × TableScan) (mem : entry ∈ scans) :
      (Plan.mk (scans.flatMap block)).splitsFor entry.1 = block entry := by
    have found := exists_splitsFor (distinct.perm permuted) own mem
    rwa [← List.flatMap_def] at found
  exact ⟨_, s', planned, pauses, rfl, found, List.flatMap_congr found⟩

end

/-! ### Two tables on one node -/

/-- The plan for one of the two tables. -/
def neighbourRun (table : TableName) : Result Plan × Session (Cached Registry) :=
  outcome (plan Registry.collaborators ⟨[(table, .plain)], []⟩ [] [])
    (.start ⟨.neighbours, .empty 1⟩)

/-- Each of the two tables can be planned alone. -/
theorem exists_plansAlone_neighbours (table : TableName)
    (succeeds : (neighbourRun table).1.isOk = true) (none : (neighbourRun table).2.pauses = []) :
    ∃ splits, PlansAlone Registry.collaborators [] [] .neighbours 1 (table, .plain) splits := by
  obtain ⟨p, s', planned⟩ := exists_of_isOk_outcome succeeds
  rw [planned] at none
  have front : (Session.start (⟨.neighbours, .empty 1⟩ : Cached Registry)).InFront .neighbours 1 :=
    ⟨rfl, Lru.wellFormed_empty 1, rfl⟩
  exact ⟨p.splits, [], _, s', front, planned, none⟩

/-- The two tables in the other order, in front of a cache that holds what was true of one of them
earlier. -/
theorem plan_neighbours_swapped :
    ∃ ts us, PlansAlone Registry.collaborators [] [] .neighbours 1 (.text "t", .plain) ts ∧
      PlansAlone Registry.collaborators [] [] .neighbours 1 (.text "u", .plain) us ∧
      ∃ p s', outcome (plan Registry.collaborators
          ⟨[(.text "u", .plain), (.text "t", .plain)], []⟩ [] [])
          (Registry.staleSession .neighbours) = (.ok p, s') ∧
        p.splits = us ++ ts ∧ p.splitsFor (.text "t") = ts := by
  obtain ⟨ts, first⟩ := exists_plansAlone_neighbours (.text "t") (by decide +kernel)
    (by decide +kernel)
  obtain ⟨us, second⟩ := exists_plansAlone_neighbours (.text "u") (by decide +kernel)
    (by decide +kernel)
  refine ⟨ts, us, first, second, ?_⟩
  have names (host : String) : Registry.collaborators.canonical host =
      Effect.ofResult (.ok (.text host)) := rfl
  have distinct : neighboursJob.scans.Distinct := List.pairwise_pair.mpr rfl
  -- each table has the splits that it has alone
  let block (entry : TableName × TableScan) : List Split :=
    if entry.1 = .text "t" then ts else us
  have alone (entry : TableName × TableScan) (mem : entry ∈ neighboursJob.scans) :
      PlansAlone Registry.collaborators [] [] .neighbours 1 entry (block entry) := by
    rcases List.mem_pair.mp mem with rfl | rfl
    · exact first
    · exact second
  have front : (Registry.staleSession .neighbours).InFront .neighbours 1 :=
    ⟨rfl, Registry.wellFormed_staleSession _, rfl⟩
  obtain ⟨p, s', planned, -, splits, found, -⟩ := plan_of_alone Registry.backend_collaborators names
    distinct (List.cons_ne_nil _ _) alone (List.Perm.swap _ _ []) front []
  have joined : p.splits = us ++ (ts ++ []) := splits
  rw [List.append_nil] at joined
  have last := found (.text "t", .plain) (List.mem_cons_of_mem _ List.mem_cons_self)
  exact ⟨p, s', planned, joined, last⟩

end Planning

end ScanPlanner
