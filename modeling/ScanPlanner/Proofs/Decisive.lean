import ScanPlanner.Proofs.Retry

/-!
# Decisive attempts

When a store can be read (`Store.Readable`), locating ranges has one possible course. Online, the
first attempt decides that finds every range located, the table deleted or the table offline, in
this order (`Locating.locate_online_eq`); offline, the first one that finds the table online or its
metadata consistent (`Locating.locate_offline_eq`). All that counts is the store before that
attempt: not the earlier attempts, and not what the cache held.

A binning holds each range once for each tablet that covers it, and nothing else
(`Binning.ranges_spread`).
-/

namespace ScanPlanner

variable {ω : Type}

/-! ## What a store says -/

namespace Store

variable (store : Store ω) (w : ω) (id : TableId) (ranges : List KeyRange)

/-- The tablets of a table; a table that is not there has none. -/
def present : List Tablet :=
  match store.tabletsNow w id with
  | .ok tablets => tablets
  | .error _ => []

/-- What is asked about a table has an answer, and its tablets are legible. Whether the table is
there is asked before its state and its tablets, so these need an answer only if it is. -/
structure Readable : Prop where
  scalar : id.isScalar = true
  tablets : store.tabletsNow w id = .ok (store.present w id)
  legible : Tablet.Legible (store.present w id) ranges
  there : ∃ there, store.tableExists w id = .ok there
  state : store.tableExists w id = .ok true → ∃ state, store.tableState w id = .ok state
  listed : store.tableExists w id = .ok true → store.tablets w id = .ok (store.present w id)

/-- Every range is covered by tablets all of which are hosted. Then the attempt ends with a binning
and asks nothing about the table. -/
def AllLocated : Prop := ∀ r ∈ ranges, Located.isLocated (store.present w id) r = true

instance : Decidable (store.AllLocated w id ranges) :=
  inferInstanceAs (Decidable (∀ r ∈ ranges, _))

/-- An attempt to locate ranges of an online table that is not followed by another one: all ranges
are located, or the table is gone, or it is offline. Where all can be read, any other attempt is
followed by a pause and a new one. -/
def Decisive : Prop :=
  store.AllLocated w id ranges ∨ store.tableExists w id = .ok false ∨
    store.tableState w id = .ok .offline

/-- What a decisive attempt comes to: a binning of all ranges, if they are located, and otherwise
the reason why there is none. -/
def decision : Result Binning :=
  if store.AllLocated w id ranges then .ok (.spread Tablet.host (store.present w id) ranges)
  else if store.tableExists w id = .ok false then .error (.refused (.tableDeleted id))
  else .error (.refused (.tableOffline id))

/-- What is asked in a decisive attempt. -/
def decisiveQuestions : List Question :=
  if store.AllLocated w id ranges then [.invalidate, .resolve]
  else if store.tableExists w id = .ok false then [.invalidate, .resolve, .tableExists]
  else [.invalidate, .resolve, .tableExists, .tableState]

/-- Every range is covered by tablets none of which is hosted. Of an offline table this is what an
attempt waits for. -/
def AllReleased : Prop := ∀ r ∈ ranges, Offline.isReleased (store.present w id) r = true

instance : Decidable (store.AllReleased w id ranges) :=
  inferInstanceAs (Decidable (∀ r ∈ ranges, _))

variable {store w id ranges}

/-- The tablets that a table has now are those that the store gives for it, unless the table is not
there. -/
theorem tablets_of_tabletsNow {tablets : List Tablet} (h : store.tabletsNow w id = .ok tablets)
    (there : ∀ name, store.tablets w id ≠ .error (.refused (.tableNotExist name))) :
    store.tablets w id = .ok tablets := by
  unfold tabletsNow tablets? at h
  revert h there
  cases store.tablets w id with
  | ok listed => exact fun h _ => h
  | error f =>
    intro h there
    cases f with
    | refused why =>
      cases why with
      | tableNotExist name => exact absurd rfl (there name)
      | _ => cases h
    | _ => cases h

/-- A registry has an answer to what is asked about a table, as long as its tablets are legible. A
table that is not there is an answer, too. -/
theorem readable_registry {r : Registry} (scalar : id.isScalar = true) {tablets : List Tablet}
    (h : Registry.store.tabletsNow r id = .ok tablets) (legible : Tablet.Legible tablets ranges) :
    Registry.store.Readable r id ranges := by
  have present : Registry.store.present r id = tablets := by
    unfold Store.present
    rw [h]
  have there : Registry.store.tableExists r id = .ok (r.tables.get? id).isSome := by
    show r.tableExists id = _
    unfold Registry.tableExists
    rw [scalar]
    rfl
  -- a table that exists is one that the registry gives, so its state and tablets are known
  have known (hthere : Registry.store.tableExists r id = .ok true) : ∃ t, r.table id = .ok t := by
    obtain ⟨t, ht⟩ := Option.isSome_iff_exists.mp (Except.ok.inj (there.symm.trans hthere))
    exact ⟨t, Registry.table_of_get? scalar ht⟩
  refine ⟨scalar, ?_, ?_, ⟨_, there⟩, fun hthere => ?_, fun hthere => ?_⟩
  · rw [present]
    exact h
  · rw [present]
    exact legible
  · obtain ⟨t, ht⟩ := known hthere
    exact ⟨t.state, Registry.tableState_of_table ht⟩
  · obtain ⟨t, ht⟩ := known hthere
    have listed : Registry.store.tablets r id = t.sorted := Registry.tablets_of_table ht
    rw [present]
    refine tablets_of_tabletsNow h fun name missing => ?_
    cases Table.eq_unlike_of_sorted (listed.symm.trans missing)

/-! ## Online tables -/

/-- In metadata that can be read the ranges are located on the tablets that are there, and the
answer is complete exactly if all of them are located. -/
theorem located_of_readable (h : store.Readable w id ranges) {capacity : Int} (hc : 1 ≤ capacity) :
    ∃ l, store.located capacity w id ranges = .ok l ∧
      (l.isComplete = true ↔ store.AllLocated w id ranges) ∧
      (store.AllLocated w id ranges →
        l.binning = .spread Tablet.host (store.present w id) ranges) := by
  unfold located
  rw [tabletsVia_of_le hc, h.tablets, Result.bind_ok, Located.ofTablets_of_legible h.legible]
  refine ⟨_, rfl, ?_, fun all => ?_⟩
  · show List.isEmpty _ = true ↔ _
    rw [Located.isEmpty_unresolved, List.all_eq_true]
    rfl
  · show Binning.spread _ _ _ = _
    rw [List.filter_eq_self.mpr all]

/-- An attempt that is not decisive gives nothing and asks all questions: that the table is there
and online is what it asks after it has not located all ranges. -/
theorem online_of_not_decisive (h : store.Readable w id ranges) {capacity : Int}
    (hc : 1 ≤ capacity) (hd : ¬ store.Decisive w id ranges) :
    store.online capacity w id ranges = .ok none ∧
      store.onlineAsked capacity w id ranges =
        [Question.invalidate, .resolve, .tableExists, .tableState].map (Event.asked · id) := by
  obtain ⟨l, hl, complete, -⟩ := located_of_readable h hc
  have incomplete : l.isComplete = false := by
    rw [← Bool.not_eq_true, complete]
    exact fun all => hd (.inl all)
  -- the attempt decides nothing only if the table is there and online
  have there : store.tableExists w id = .ok true := by
    obtain ⟨there, hthere⟩ := h.there
    cases there with
    | false => exact absurd (.inr (.inl hthere)) hd
    | true => exact hthere
  have state : store.tableState w id = .ok .online := by
    obtain ⟨state, hstate⟩ := h.state there
    cases state with
    | offline => exact absurd (.inr (.inr hstate)) hd
    | online => exact hstate
  unfold online onlineAsked
  rw [hl, there, state]
  simp only [Result.bind_ok, incomplete]
  exact ⟨rfl, rfl⟩

/-- An online attempt on a store that decides comes to the decision, and asks the questions that are
needed for it. -/
theorem online_of_decisive (h : store.Readable w id ranges) {capacity : Int} (hc : 1 ≤ capacity)
    (hd : store.Decisive w id ranges) :
    store.online capacity w id ranges = (store.decision w id ranges).map some ∧
      store.onlineAsked capacity w id ranges =
        (store.decisiveQuestions w id ranges).map (Event.asked · id) := by
  obtain ⟨l, hl, complete, binning⟩ := located_of_readable h hc
  -- the questions are asked in the order in which the decision looks at the answers
  unfold online onlineAsked decision decisiveQuestions
  rw [hl]
  by_cases all : store.AllLocated w id ranges
  · simp only [Result.bind_ok, complete.mpr all, if_true, if_pos all, binning all]
    exact ⟨rfl, rfl⟩
  · have incomplete : l.isComplete = false := by
      rw [← Bool.not_eq_true, complete]
      exact all
    simp only [Result.bind_ok, incomplete, if_neg all]
    by_cases gone : store.tableExists w id = .ok false
    · simp only [gone, if_true]
      exact ⟨rfl, rfl⟩
    · obtain ⟨there, hthere⟩ := h.there
      have hthere : store.tableExists w id = .ok true := by
        cases there with
        | false => exact absurd hthere gone
        | true => exact hthere
      have state : store.tableState w id = .ok .offline := by
        rcases hd with all' | gone' | state
        · exact absurd all' all
        · exact absurd gone' gone
        · exact state
      simp only [hthere, state]
      exact ⟨rfl, rfl⟩

/-! ## Offline tables -/

/-- What the metadata of a table that is there comes to offline: a refusal as long as it is online,
then a binning if all that is needed is released, and nothing otherwise. -/
theorem offline_of_readable (h : store.Readable w id ranges)
    (there : store.tableExists w id = .ok true) :
    (store.tableState w id = .ok .online ∧
        store.offline w id ranges = .error (.refused (.tableOnline id))) ∨
      (store.tableState w id = .ok .offline ∧ store.AllReleased w id ranges ∧
        store.offline w id ranges =
          .ok (some (.spread Offline.lastAddress (store.present w id) ranges))) ∨
      (store.tableState w id = .ok .offline ∧ ¬ store.AllReleased w id ranges ∧
        store.offline w id ranges = .ok none) := by
  obtain ⟨state, hstate⟩ := h.state there
  unfold offline
  rw [hstate, h.listed there]
  cases state with
  | online => exact .inl ⟨rfl, rfl⟩
  | offline =>
    right
    -- an obstacle is found exactly if some range is not released
    by_cases all : store.AllReleased w id ranges
    · refine .inl ⟨rfl, all, ?_⟩
      rw [Result.bind_ok, Result.bind_ok,
        Offline.ofTablets_of_released h.legible (List.all_eq_true.mpr all)]
      rfl
    · have unreleased : ranges.all (Offline.isReleased (store.present w id)) = false := by
        rw [← Bool.not_eq_true, List.all_eq_true]
        exact all
      obtain ⟨why, obstacle⟩ := Offline.ofTablets_of_not_released h.legible unreleased
      refine .inr ⟨rfl, all, ?_⟩
      rw [Result.bind_ok, Result.bind_ok, obstacle]
      rfl

/-- The three outcomes of an attempt exclude each other, so each of them happens just under its
condition. -/
theorem offline_iff (h : store.Readable w id ranges) (there : store.tableExists w id = .ok true) :
    (store.offline w id ranges = .error (.refused (.tableOnline id)) ↔
        store.tableState w id ≠ .ok .offline) ∧
      (∀ binning, store.offline w id ranges = .ok (some binning) ↔
        store.tableState w id = .ok .offline ∧ store.AllReleased w id ranges ∧
          binning = .spread Offline.lastAddress (store.present w id) ranges) ∧
      (store.offline w id ranges = .ok none ↔
        store.tableState w id = .ok .offline ∧ ¬ store.AllReleased w id ranges) := by
  rcases offline_of_readable h there with ⟨state, e⟩ | ⟨state, all, e⟩ | ⟨state, all, e⟩
  · rw [e, state]
    simp
  · rw [e, state]
    simp [all, eq_comm]
  · rw [e, state]
    simp [all]

end Store

/-! ## Pauses of a session -/

/-- The length of a pause. -/
def Event.pause? : Event → Option Nat
  | .paused millis => some millis
  | _ => none

/-- The lengths of the pauses made so far. -/
def Session.pauses (s : Session ω) : List Nat := s.trace.filterMap Event.pause?

/-- The pauses are found among what has happened apart from the log. -/
theorem Session.pauses_eq (s : Session ω) : s.pauses = s.happened.filterMap Event.pause? := by
  unfold pauses happened
  rw [List.filterMap_filter]
  refine List.filterMap_congr fun e _ => ?_
  cases e <;> rfl

namespace Locating

variable {store : Store ω} {c : Collaborators (Cached ω)} {kind : BackendKind} {b : Backoff}
  {id : TableId} {ranges : List KeyRange} {schedule : Schedule ω} {s : Session (Cached ω)} {n : Nat}

/-- Of the events of a pause one is the pause itself. -/
theorem filterMap_pauseEvents (numbers : Nat → Int) (drawn : Nat) :
    (b.pauseEvents numbers drawn).filterMap Event.pause? = [b.delayAt numbers drawn] := by
  unfold Backoff.pauseEvents
  rw [List.filterMap_append]
  split <;> rfl

/-- No question is a pause. -/
theorem filterMap_asked (qs : List Question) :
    (qs.map (Event.asked · id)).filterMap Event.pause? = [] := by
  rw [List.filterMap_map, List.filterMap_eq_nil_iff]
  intro q _
  rfl

/-- Of the events of some rounds the pauses are those between them. What is asked in a round may
change from one to the next. -/
theorem filterMap_rounds (qs : Nat → List Question) (last : List Question) (numbers : Nat → Int)
    (drawn : Nat) :
    ((List.range n).flatMap (fun i =>
          (qs i).map (Event.asked · id) ++ b.pauseEvents numbers (drawn + i)) ++
        last.map (Event.asked · id)).filterMap Event.pause? =
      (List.range n).map fun i => b.delayAt numbers (drawn + i) := by
  rw [List.filterMap_append, filterMap_asked, List.append_nil, List.filterMap_flatMap,
    List.map_eq_flatMap]
  refine List.flatMap_congr fun i _ => ?_
  rw [List.filterMap_append, filterMap_asked, List.nil_append, filterMap_pauseEvents]

/-- Of an online table, ranges are located by the first decisive attempt: after one pause for each
attempt before it, with all that is known about the tablets forgotten before they are asked for, and
with the outcome that the store decides as it is then. -/
theorem locate_online_eq (hc : c.backend = .ofCatalog kind store.catalog)
    (cache : s.world.known.WellFormed) (room : 1 ≤ s.world.known.capacity)
    (hn : n ≤ schedule.length)
    (readable : ∀ i ≤ n, store.Readable (Schedule.worldAt s.world.backing schedule i) id ranges)
    (passes : ∀ i < n, ∀ e, schedule[i]? = some e →
      b.Passes c.numbers (s.drawn + i) (Schedule.worldAt s.world.backing schedule i) e)
    (undecided : ∀ i < n, ¬ store.Decisive (Schedule.worldAt s.world.backing schedule i) id ranges)
    (decisive : store.Decisive (Schedule.worldAt s.world.backing schedule n) id ranges) :
    ∃ s', outcome (locate c b id ranges false (schedule.map Locator.behind)) s =
        ((store.decision (Schedule.worldAt s.world.backing schedule n) id ranges).map
          (·, (schedule.drop n).map Locator.behind), s') ∧
      s'.pauses = s.pauses ++ (List.range n).map (fun i => b.delayAt c.numbers (s.drawn + i)) ∧
      (∀ drawn, b.least ≤ b.delayAt c.numbers drawn ∧
        (b.delayAt c.numbers drawn < b.least + b.jitter ∨
          b.jitter = 0 ∧ b.delayAt c.numbers drawn = b.least)) ∧
      s'.happened = s.happened ++
        ((List.range n).flatMap (fun i =>
            [Question.invalidate, .resolve, .tableExists, .tableState].map (Event.asked · id) ++
              b.pauseEvents c.numbers (s.drawn + i)) ++
          (store.decisiveQuestions (Schedule.worldAt s.world.backing schedule n) id ranges).map
            (Event.asked · id)) := by
  have last := readable n (Nat.le_refl n)
  have scalar : id.isScalar = true := last.scalar
  have first := Store.online_of_decisive last room decisive
  have others (i : Nat) (hi : i < n) :=
    Store.online_of_not_decisive (readable i (Nat.le_of_lt hi)) room (undecided i hi)
  obtain ⟨s', run, -, -, -, happened⟩ :=
    outcome_retry_of_first (decides_attemptOnline hc scalar ranges s.world.known.capacity)
      (b := b) hn cache rfl rfl (fun i hi => (others i hi).1) first.1 passes 1
  -- the events of the run, with the questions of each attempt spelled out
  have told : runEvents b c.numbers (store.onlineAsked s.world.known.capacity · id ranges)
      s.world.backing s.drawn schedule n =
        (List.range n).flatMap (fun i =>
            [Question.invalidate, .resolve, .tableExists, .tableState].map (Event.asked · id) ++
              b.pauseEvents c.numbers (s.drawn + i)) ++
          (store.decisiveQuestions (Schedule.worldAt s.world.backing schedule n) id ranges).map
            (Event.asked · id) := by
    unfold runEvents
    beta_reduce
    rw [first.2]
    congr 1
    refine List.flatMap_congr fun i hi => ?_
    rw [(others i (List.mem_range.mp hi)).2]
  rw [told] at happened
  refine ⟨s', run, ?_, ?_, happened⟩
  · rw [Session.pauses_eq, Session.pauses_eq, happened, List.filterMap_append, filterMap_rounds]
  · intro drawn
    exact ⟨b.least_le_delayAt c.numbers drawn, b.delayAt_lt c.numbers drawn⟩

/-- A table whose upper tablet is not hosted at first is located after one pause, in which the
tablet finds a place. What the cache held of the table does not matter. -/
theorem locate_online_halves :
    ∃ s', outcome (locate Registry.collaborators ⟨10, 5⟩ (.text "1") [.acrossHalves] false
        ([Registry.moveUpperHalf (some (.text "b:1"))].map Locator.behind))
        (Registry.staleSession .halfHosted) =
          (.ok (.spread Tablet.host [⟨.lowerHalf, some (.text "a:1"), none⟩,
            ⟨.upperHalf, some (.text "b:1"), none⟩] [.acrossHalves], []), s') ∧
      s'.pauses = [12] := by
  have short : 1 ≤ [Registry.moveUpperHalf (some (.text "b:1"))].length := by decide
  have readable (i : Nat) (hi : i ≤ 1) : Registry.store.Readable (Schedule.worldAt .halfHosted
      [Registry.moveUpperHalf (some (.text "b:1"))] i) (.text "1") [.acrossHalves] := by
    match i, hi with
    | 0, _ => exact Store.readable_registry rfl rfl (by decide)
    | 1, _ => exact Store.readable_registry rfl rfl (by decide)
  -- before the pause the upper half is not hosted, and the table is neither gone nor offline
  have undecided (i : Nat) (hi : i < 1) : ¬ Registry.store.Decisive (Schedule.worldAt .halfHosted
      [Registry.moveUpperHalf (some (.text "b:1"))] i) (.text "1") [.acrossHalves] := by
    obtain rfl : i = 0 := by omega
    rintro (all | gone | offline)
    · revert all
      decide
    · cases gone
    · cases offline
  obtain ⟨s', run, pauses, -, -⟩ := locate_online_eq (b := ⟨10, 5⟩)
    (s := Registry.staleSession .halfHosted) Registry.backend_collaborators
    (Registry.wellFormed_staleSession _) (by decide) short readable
    (fun i hi e he => by
      obtain rfl : i = 0 := by omega
      cases he
      exact ⟨by decide, rfl⟩)
    undecided (.inl (by decide))
  exact ⟨s', run, pauses⟩

/-- Of an offline table that stays there, each attempt fails if the table is not offline, gives a
binning if the metadata is consistent, and gives nothing otherwise. Ranges are located by the first
attempt that does not give nothing: after one pause for each attempt before it, each of which reads
the store as it is then. -/
theorem locate_offline_eq (hc : c.backend = .ofCatalog kind store.catalog)
    (cache : s.world.known.WellFormed) (hn : n ≤ schedule.length)
    (readable : ∀ i ≤ n, store.Readable (Schedule.worldAt s.world.backing schedule i) id ranges)
    (there : ∀ i ≤ n,
      store.tableExists (Schedule.worldAt s.world.backing schedule i) id = .ok true)
    (passes : ∀ i < n, ∀ e, schedule[i]? = some e →
      b.Passes c.numbers (s.drawn + i) (Schedule.worldAt s.world.backing schedule i) e)
    (waiting : ∀ i < n, (outcome (Offline.bin store.catalog id ranges)
      ⟨Schedule.worldAt s.world.backing schedule i, []⟩).1 = .ok none)
    (answered : (outcome (Offline.bin store.catalog id ranges)
      ⟨Schedule.worldAt s.world.backing schedule n, []⟩).1 ≠ .ok none) :
    (∀ i ≤ n, ∀ w, w = Schedule.worldAt s.world.backing schedule i →
      ((outcome (Offline.bin store.catalog id ranges) ⟨w, []⟩).1 =
          .error (.refused (.tableOnline id)) ↔ store.tableState w id ≠ .ok .offline) ∧
      (∀ binning, (outcome (Offline.bin store.catalog id ranges) ⟨w, []⟩).1 = .ok (some binning) ↔
        store.tableState w id = .ok .offline ∧ store.AllReleased w id ranges ∧
          binning = .spread Offline.lastAddress (store.present w id) ranges) ∧
      ((outcome (Offline.bin store.catalog id ranges) ⟨w, []⟩).1 = .ok none ↔
        store.tableState w id = .ok .offline ∧ ¬ store.AllReleased w id ranges) ∧
      (Binning.spread Offline.lastAddress (store.present w id) ranges).WellFormed ∧
      ∀ location extent,
        (Binning.spread Offline.lastAddress (store.present w id) ranges).ranges location extent =
          ranges.flatMap fun r => ((Tablet.coverers (store.present w id) r).filter fun t =>
            Offline.lastAddress t == location && t.extent == extent).map fun _ => r) ∧
    ∃ (o : Result Binning) (s' : Session (Cached ω)),
      (outcome (Offline.bin store.catalog id ranges)
        ⟨Schedule.worldAt s.world.backing schedule n, []⟩).1 = o.map some ∧
      outcome (locate c b id ranges true (schedule.map Locator.behind)) s =
        (o.map (·, (schedule.drop n).map Locator.behind), s') ∧
      s'.pauses = s.pauses ++ (List.range n).map (fun i => b.delayAt c.numbers (s.drawn + i)) ∧
      s'.happened = s.happened ++
        ((List.range n).flatMap (fun i =>
            [Question.binOffline].map (Event.asked · id) ++
              b.pauseEvents c.numbers (s.drawn + i)) ++
          [Question.binOffline].map (Event.asked · id)) := by
  -- what an attempt gives is what the store comes to
  have bin (w : ω) : (outcome (Offline.bin store.catalog id ranges) ⟨w, []⟩).1 =
      store.offline w id ranges := by
    obtain ⟨notes, run⟩ := store.outcome_bin id ranges w []
    rw [run]
  simp only [bin] at waiting answered ⊢
  constructor
  · rintro i hi w rfl
    obtain ⟨online, given, none⟩ := Store.offline_iff (readable i hi) (there i hi)
    exact ⟨online, given, none, Binning.wellFormed_ofAssignments _,
      Binning.ranges_spread Offline.lastAddress _ ranges⟩
  · -- the last attempt gives a binning or fails
    obtain ⟨o, ho⟩ : ∃ o : Result Binning,
        store.offline (Schedule.worldAt s.world.backing schedule n) id ranges = o.map some := by
      cases hr : store.offline (Schedule.worldAt s.world.backing schedule n) id ranges with
      | error f => exact ⟨.error f, rfl⟩
      | ok found =>
        cases found with
        | none => exact absurd hr answered
        | some binning => exact ⟨.ok binning, rfl⟩
    obtain ⟨s', run, -, -, -, happened⟩ :=
      outcome_retry_of_first (decides_attemptOffline hc id ranges s.world.known.capacity)
        (b := b) hn cache rfl rfl waiting ho passes 1
    refine ⟨o, s', ho, run, ?_, happened⟩
    rw [Session.pauses_eq, Session.pauses_eq, happened, List.filterMap_append]
    exact congrArg (_ ++ ·) (filterMap_rounds (fun _ => [.binOffline]) [.binOffline]
      c.numbers s.drawn)

/-- An offline table one tablet of which is still hosted at first is located after one pause, in
which the node lets go of it. -/
theorem locate_offline_halves :
    ∃ s', outcome (locate Registry.collaborators ⟨10, 5⟩ (.text "1") [.acrossHalves] true
        ([Registry.moveUpperHalf none].map Locator.behind))
        (Registry.staleSession .halfReleased) =
          (.ok (.spread Offline.lastAddress [⟨.lowerHalf, none, none⟩,
            ⟨.upperHalf, none, some (.text "b:1")⟩] [.acrossHalves], []), s') ∧
      s'.pauses = [12] := by
  have short : 1 ≤ [Registry.moveUpperHalf none].length := by decide
  have readable (i : Nat) (hi : i ≤ 1) : Registry.store.Readable (Schedule.worldAt .halfReleased
      [Registry.moveUpperHalf none] i) (.text "1") [.acrossHalves] := by
    match i, hi with
    | 0, _ => exact Store.readable_registry rfl rfl (by decide)
    | 1, _ => exact Store.readable_registry rfl rfl (by decide)
  -- the table stays while its upper half is released
  have there (i : Nat) (hi : i ≤ 1) : Registry.store.tableExists (Schedule.worldAt .halfReleased
      [Registry.moveUpperHalf none] i) (.text "1") = .ok true := by
    match i, hi with
    | 0, _ => rfl
    | 1, _ => rfl
  obtain ⟨-, o, s', bin, run, pauses, -⟩ := locate_offline_eq (b := ⟨10, 5⟩)
    (s := Registry.staleSession .halfReleased) Registry.backend_collaborators
    (Registry.wellFormed_staleSession _) short readable there
    (fun i hi e he => by
      obtain rfl : i = 0 := by omega
      cases he
      exact ⟨by decide, rfl⟩)
    (fun i hi => by
      obtain rfl : i = 0 := by omega
      rfl)
    (by decide)
  cases o with
  | error f => cases bin
  | ok binning =>
    cases bin
    exact ⟨s', run, pauses⟩

end Locating

end ScanPlanner
