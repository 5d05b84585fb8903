import ScanPlanner.Proofs.Decisive

/-!
# Tables that are dropped while they are located

A table can be dropped in a pause between two attempts to locate its ranges. The next attempt ends
the run, online and offline, but the two do not report the same (`Locating.locate_dropped`). Online,
the ranges are found unresolved and the table gone, and the run fails because the table has been
deleted. Offline, the first question about the table fails, and this failure leaves the run as it
is: the table is said not to exist (`Locating.not_deleted_halfReleased`).
-/

namespace ScanPlanner

variable {ω : Type}

namespace Located

/-- Without tablets all ranges are reported back, since a range is covered by at least one
tablet. -/
theorem ofTablets_nil (ranges : List KeyRange) : ofTablets [] ranges = .ok ⟨.empty, ranges⟩ := by
  unfold ofTablets
  suffices ∀ l : Located, ranges.foldlM (addRange []) l =
      .ok { l with unresolved := l.unresolved ++ ranges } from this empty
  induction ranges with
  | nil =>
    intro l
    rw [List.append_nil]
    rfl
  | cons r rs ih =>
    intro l
    have first : addRange [] l r = .ok { l with unresolved := l.unresolved ++ [r] } := rfl
    rw [List.foldlM_cons, first, Result.bind_ok, ih, List.append_assoc]
    rfl

end Located

/-! ## Tables that are gone -/

namespace Store

variable {store : Store ω} {w : ω} {id : TableId} {ranges : List KeyRange}

/-- The store has no table with the id. It says so when it is asked whether there is one, and fails
when it is asked for anything else. -/
structure Gone (store : Store ω) (w : ω) (id : TableId) : Prop where
  there : store.tableExists w id = .ok false
  state : store.tableState w id = .error (.unknownTableId id)
  tablets : store.tablets w id = .error (.unknownTableId id)

/-- A table that is not filed in the registry is gone: each of the three questions looks it up
first. -/
theorem gone_registry {r : Registry} (scalar : id.isScalar = true)
    (h : r.tables.get? id = none) : Registry.store.Gone r id := by
  have unknown := Registry.table_of_none scalar h
  -- each of the three questions looks the table up first
  constructor
  · show r.tableExists id = _
    unfold Registry.tableExists
    rw [scalar, h]
    rfl
  · show r.tableState id = _
    unfold Registry.tableState
    rw [unknown]
    rfl
  · show r.tablets id = _
    unfold Registry.tablets
    rw [unknown]
    rfl

/-- Whatever can be asked for has no tablets, so no range is located, and the table is gone. Without
any range to locate the attempt would end before it asks for the table. -/
theorem online_of_gone (h : store.Gone w id) (some : ranges ≠ []) (capacity : Int) :
    store.online capacity w id ranges = .error (.refused (.tableDeleted id)) := by
  have tablets : store.tabletsVia capacity w id = .ok [] := by
    unfold tabletsVia tablets?
    rw [h.tablets]
    rfl
  have incomplete : (⟨.empty, ranges⟩ : Located).isComplete = false := by
    show ranges.isEmpty = false
    rwa [← Bool.not_eq_true, List.isEmpty_iff]
  unfold online located
  rw [tablets, Result.bind_ok, Located.ofTablets_nil, Result.bind_ok, incomplete, h.there]
  rfl

/-- An offline attempt on a table that is gone fails, because the tablets of the table are asked for
at once. -/
theorem offline_of_gone (h : store.Gone w id) :
    store.offline w id ranges = .error (.unknownTableId id) := by
  unfold offline
  rw [h.state]
  rfl

/-- An online attempt can be undecided only about some range. -/
theorem ne_nil_of_online {capacity : Int} (h : store.online capacity w id ranges = .ok none) :
    ranges ≠ [] := by
  rintro rfl
  obtain ⟨located, hlocated, h⟩ := Result.bind_eq_ok.mp h
  obtain ⟨tablets, -, hlocated⟩ := Result.bind_eq_ok.mp hlocated
  cases hlocated
  cases h

/-- The questions of an online attempt are no pauses, wherever the attempt stops asking. -/
theorem filterMap_onlineAsked (capacity : Int) (w : ω) (id : TableId) (ranges : List KeyRange) :
    (store.onlineAsked capacity w id ranges).filterMap Event.pause? = [] := by
  unfold onlineAsked
  split
  · rfl
  · split
    · rfl
    · split <;> rfl

end Store

/-! ## Runs on them -/

namespace Locating

variable {store : Store ω} {c : Collaborators (Cached ω)} {kind : BackendKind} {b : Backoff}
  {id : TableId} {ranges : List KeyRange} {schedule : Schedule ω} {s : Session (Cached ω)} {n : Nat}

/-- What an attempt comes to in a store. -/
def verdict (store : Store ω) (capacity : Int) (id : TableId) (ranges : List KeyRange)
    (offline : Bool) (w : ω) : Result (Option Binning) :=
  if offline then store.offline w id ranges else store.online capacity w id ranges

/-- One pause is made before each attempt but the first. How long it is depends on the random
numbers only, one for each pause. -/
theorem pauses_runEvents {asked : ω → List Event}
    (h : ∀ w, (asked w).filterMap Event.pause? = []) (numbers : Nat → Int) (w : ω) (drawn : Nat) :
    (runEvents b numbers asked w drawn schedule n).filterMap Event.pause? =
      (List.range n).map fun i => b.delayAt numbers (drawn + i) := by
  unfold runEvents
  rw [List.filterMap_append, h, List.append_nil, List.filterMap_flatMap, List.map_eq_flatMap]
  refine List.flatMap_congr fun i _ => ?_
  rw [List.filterMap_append, h, List.nil_append, filterMap_pauseEvents]

/-- If no attempt comes to anything before the table is dropped in the `n`-th pause, the attempt
after that pause ends the run. Online, the run fails because the table has been deleted; offline, it
fails as the question about the table does. -/
theorem locate_dropped (hc : c.backend = .ofCatalog kind store.catalog)
    (scalar : id.isScalar = true) (cache : s.world.known.WellFormed) (hn : n ≤ schedule.length)
    (offline : Bool)
    (passes : ∀ i < n, ∀ e, schedule[i]? = some e →
      b.Passes c.numbers (s.drawn + i) (Schedule.worldAt s.world.backing schedule i) e)
    (waiting : ∀ i < n, verdict store s.world.known.capacity id ranges offline
      (Schedule.worldAt s.world.backing schedule i) = .ok none)
    (paused : 0 < n) (gone : store.Gone (Schedule.worldAt s.world.backing schedule n) id) :
    ∃ s', outcome (locate c b id ranges offline (schedule.map Locator.behind)) s =
        (.error (if offline then .unknownTableId id else .refused (.tableDeleted id)), s') ∧
      s'.pauses = s.pauses ++ (List.range n).map fun i => b.delayAt c.numbers (s.drawn + i) := by
  cases offline with
  | true =>
    obtain ⟨s', run, -, -, -, happened⟩ :=
      outcome_retry_of_first (decides_attemptOffline hc id ranges s.world.known.capacity) (b := b)
        (o := .error _) hn cache rfl rfl waiting (Store.offline_of_gone gone) passes 1
    refine ⟨s', run, ?_⟩
    rw [Session.pauses_eq, Session.pauses_eq, happened, List.filterMap_append,
      pauses_runEvents fun _ => rfl]
  | false =>
    -- with no ranges asked for the first attempt would have located them all
    have some : ranges ≠ [] := Store.ne_nil_of_online (waiting 0 paused)
    obtain ⟨s', run, -, -, -, happened⟩ :=
      outcome_retry_of_first (decides_attemptOnline hc scalar ranges s.world.known.capacity)
        (b := b) (o := .error _) hn cache rfl rfl waiting
        (Store.online_of_gone gone some s.world.known.capacity) passes 1
    refine ⟨s', run, ?_⟩
    rw [Session.pauses_eq, Session.pauses_eq, happened, List.filterMap_append,
      pauses_runEvents fun w => Store.filterMap_onlineAsked _ w id ranges]

/-- The table is dropped in the first pause. -/
def dropped : Schedule Registry := [Registry.carryOut (.delete (.text "t"))]

/-- A table one tablet of which is not hosted yet, or is still hosted, is dropped in the first
pause. -/
theorem locate_dropped_halves :
    (∃ s', outcome (locate Registry.collaborators ⟨10, 5⟩ (.text "1") [.acrossHalves] false
        (dropped.map Locator.behind)) (Registry.staleSession .halfHosted) =
          (.error (.refused (.tableDeleted (.text "1"))), s') ∧ s'.pauses = [12]) ∧
    ∃ s', outcome (locate Registry.collaborators ⟨10, 5⟩ (.text "1") [.acrossHalves] true
        (dropped.map Locator.behind)) (Registry.staleSession .halfReleased) =
          (.error (.unknownTableId (.text "1")), s') ∧ s'.pauses = [12] := by
  have first {i : Nat} (hi : i < 1) : i = 0 := by omega
  -- online the missing table is noticed when it is asked for, offline when its state is
  constructor
  · refine locate_dropped (n := 1) (b := ⟨10, 5⟩) (s := Registry.staleSession .halfHosted)
      Registry.backend_collaborators rfl (Registry.wellFormed_staleSession _) (by decide) false
      (fun i hi e he => ?_) (fun i hi => ?_) Nat.one_pos (Store.gone_registry rfl rfl)
    · obtain rfl := first hi
      cases he
      exact ⟨by decide, rfl⟩
    · obtain rfl := first hi
      rfl
  · refine locate_dropped (n := 1) (b := ⟨10, 5⟩) (s := Registry.staleSession .halfReleased)
      Registry.backend_collaborators rfl (Registry.wellFormed_staleSession _) (by decide) true
      (fun i hi e he => ?_) (fun i hi => ?_) Nat.one_pos (Store.gone_registry rfl rfl)
    · obtain rfl := first hi
      cases he
      exact ⟨by decide, rfl⟩
    · obtain rfl := first hi
      rfl

/-- The table is there at the first attempt and gone at the second one, and yet the run does not
fail because the table has been deleted. -/
theorem not_deleted_halfReleased :
    Registry.halfReleased.tableExists (.text "1") = .ok true ∧
      (Schedule.worldAfter .halfReleased dropped).tableExists (.text "1") = .ok false ∧
      (outcome (locate Registry.collaborators ⟨10, 5⟩ (.text "1") [.acrossHalves] true
        (dropped.map Locator.behind)) (Registry.staleSession .halfReleased)).1 ≠
          .error (.refused (.tableDeleted (.text "1"))) := by
  have run : (outcome (locate Registry.collaborators ⟨10, 5⟩ (.text "1") [.acrossHalves] true
      (dropped.map Locator.behind)) (Registry.staleSession .halfReleased)).1 =
        .error (.unknownTableId (.text "1")) := rfl
  refine ⟨rfl, rfl, fun same => ?_⟩
  rw [run] at same
  cases same

end Locating

end ScanPlanner
