import ScanPlanner.Proofs.Beside
import ScanPlanner.Proofs.Resolving

/-!
# Plans that are not adjusted

Without adjusting, the plan of a table has one split for each range that was requested, or one for
all keys if none was, in ascending order and at the hosts of the tablets that meet the range
(`Planning.unclipped_planTable`). The order in which the ranges are written and how often each of
them is make no difference to the plan of a job (`Planning.unclipped_plan`): the same attempts are
made, as they agree on what is located (`Store.agrees_of_same`).
-/

namespace ScanPlanner

variable {ω : Type}

/-! ## Requested ranges -/

namespace KeyRange

/-- The ranges that are requested: the range of all keys if none is written. -/
def requested (rs : List KeyRange) : List KeyRange := if rs.isEmpty then [everything] else rs

theorem normalize_unadjusted (rs : List KeyRange) : normalize rs false = .ok (requested rs) := rfl

variable {rs rs' : List KeyRange}

/-- A range is requested if it is written, or if none is and it is the range of all keys. -/
theorem mem_requested_iff {r : KeyRange} :
    r ∈ requested rs ↔ r ∈ rs ∨ rs = [] ∧ r = everything := by
  unfold requested
  cases rs with
  | nil => simp
  | cons head tail => simp

/-- Which ranges are requested does not depend on the order in which they are written. -/
theorem requested_of_same (same : ∀ r, r ∈ rs' ↔ r ∈ rs) (r : KeyRange) :
    r ∈ requested rs' ↔ r ∈ requested rs := by
  have none : rs' = [] ↔ rs = [] := by
    rw [List.eq_nil_iff_forall_not_mem, List.eq_nil_iff_forall_not_mem]
    exact forall_congr' fun r => not_congr (same r)
  rw [mem_requested_iff, mem_requested_iff, same, none]

theorem all_eq_of_same (same : ∀ r, r ∈ rs' ↔ r ∈ rs) (p : KeyRange → Bool) :
    rs'.all p = rs.all p := by
  rw [Bool.eq_iff_iff, List.all_eq_true, List.all_eq_true]
  exact forall_congr' fun r => imp_congr_left (same r)

/-- Requested ranges say in truth values whether their ends are closed, if those that are written
do. -/
theorem boolean_requested (boolean : ∀ r ∈ rs, r.Boolean) : ∀ r ∈ requested rs, r.Boolean := by
  intro r hr
  rcases mem_requested_iff.mp hr with hr | ⟨-, rfl⟩
  · exact boolean r hr
  · exact boolean_everything

end KeyRange

open KeyRange (requested)

/-- Tablets that are tidy for the written ranges are so for the requested ones: the range of all
keys has no ends. -/
theorem Tablet.Tidy.requested {tablets : List Tablet} {ranges : List KeyRange}
    (h : Tidy tablets ranges) : Tidy tablets (KeyRange.requested ranges) := by
  refine h.of_keys fun k hk => ?_
  obtain ⟨r, hr, hk⟩ := List.mem_flatMap.mp hk
  rcases KeyRange.mem_requested_iff.mp hr with hr | ⟨-, rfl⟩
  · exact List.mem_flatMap.mpr ⟨r, hr, hk⟩
  · cases hk

/-! ## Attempts on ranges in another order -/

/-- The two binnings are of the same tablets, which are tidy for the ranges and cover them. How the
two lists of ranges differ is not said here. -/
def Binning.Alike (node : Tablet → Address) (ranges others : List KeyRange) (b b' : Binning) :
    Prop :=
  ∃ tablets, Tablet.Tidy tablets ranges ∧ (∀ r ∈ ranges, Tablet.Cover tablets r) ∧
    b = .spread node tablets ranges ∧ b' = .spread node tablets others

namespace Store

section

variable {store : Store ω} {w : ω} {id : TableId} {ranges others : List KeyRange}
  {found : Option Binning}

variable (tidy : ∀ tablets, store.tabletsNow w id = .ok tablets → Tablet.Tidy tablets ranges)
  (same : ∀ r, r ∈ others ↔ r ∈ ranges)
include tidy same

/-- An attempt on ranges in another order comes to the same verdict, with a binning of the same
tablets if it gives one. -/
theorem online_of_same {capacity : Int} (h : store.online capacity w id ranges = .ok found) :
    ∃ found', store.online capacity w id others = .ok found' ∧
      Option.Rel (Binning.Alike Tablet.host ranges others) found found' := by
  have given := h
  unfold online located at h ⊢
  obtain ⟨l, located, h⟩ := Result.bind_eq_ok.mp h
  obtain ⟨tablets, via, located⟩ := Result.bind_eq_ok.mp located
  have tidy := tidy tablets (tabletsNow_of_tabletsVia via)
  rw [via, Result.bind_ok, Located.ofTablets_of_legible
    (tidy.of_subset fun r => (same r).mp).legible, Result.bind_ok]
  rw [Located.ofTablets_of_legible tidy.legible] at located
  cases located
  -- whether all ranges are located does not depend on their order
  unfold Located.isComplete at h ⊢
  rw [Located.isEmpty_unresolved] at h ⊢
  have all := KeyRange.all_eq_of_same same (Located.isLocated tablets)
  rw [all]
  cases complete : ranges.all (Located.isLocated tablets) with
  | true =>
    rw [complete] at h all
    cases h
    refine ⟨_, rfl, .some ⟨tablets, tidy, fun r hr => ?_, ?_, ?_⟩⟩
    · exact Located.cover_of_isLocated (List.all_eq_true.mp complete r hr)
    · rw [List.filter_eq_self.mpr (List.all_eq_true.mp complete)]
    · rw [List.filter_eq_self.mpr (List.all_eq_true.mp all)]
  -- ranges that are not all located give no binning
  | false =>
    rw [complete] at h
    cases found with
    | none => exact ⟨none, h, .none⟩
    | some binning =>
      obtain ⟨tablets', now, located, -⟩ := online_eq_some given
      obtain rfl : tablets = tablets' :=
        Except.ok.inj ((tabletsNow_of_tabletsVia via).symm.trans now)
      rw [List.all_eq_true.mpr located] at complete
      cases complete

/-- An attempt to assign ranges of an offline table goes the same way for the same ranges in another
order: with an alike binning, or with none. -/
theorem offline_of_same (h : store.offline w id ranges = .ok found) :
    ∃ found', store.offline w id others = .ok found' ∧
      Option.Rel (Binning.Alike Offline.lastAddress ranges others) found found' := by
  unfold offline at h ⊢
  obtain ⟨state, hstate, h⟩ := Result.bind_eq_ok.mp h
  rw [hstate, Result.bind_ok]
  cases state with
  | online => cases h
  | offline =>
    obtain ⟨tablets, listed, h⟩ := Result.bind_eq_ok.mp h
    have tidy := tidy tablets (tabletsNow_of_tablets listed)
    have tidy' := tidy.of_subset fun r => (same r).mp
    have all := KeyRange.all_eq_of_same same (Offline.isReleased tablets)
    rw [listed]
    -- the same ranges are released on both sides, in whatever order they are asked for
    cases released : ranges.all (Offline.isReleased tablets) with
    | true =>
      rw [Offline.ofTablets_of_released tidy.legible released] at h
      cases h
      rw [released] at all
      refine ⟨_, ?_, .some ⟨tablets, tidy, fun r hr => ?_, rfl, rfl⟩⟩
      · rw [Result.bind_ok, Offline.ofTablets_of_released tidy'.legible all]
        rfl
      · exact Offline.cover_of_isReleased (List.all_eq_true.mp released r hr)
    | false =>
      obtain ⟨_, obstacle⟩ := Offline.ofTablets_of_not_released tidy.legible released
      rw [obstacle] at h
      cases h
      rw [released] at all
      obtain ⟨_, obstacle'⟩ := Offline.ofTablets_of_not_released tidy'.legible all
      refine ⟨none, ?_, .none⟩
      rw [Result.bind_ok, obstacle']
      rfl

/-- Attempts on the same ranges in another order agree, whether the table is scanned online or
offline. -/
theorem agrees_of_same (scan : TableScan) (capacity : Int) :
    store.Agrees (Binning.Alike (Planning.nodeOf scan) ranges others) scan.offline capacity id
      ranges others w := by
  intro found h
  unfold verdict at h ⊢
  unfold Planning.nodeOf
  cases hoff : scan.offline with
  | true =>
    rw [hoff] at h
    exact offline_of_same tidy same h
  | false =>
    rw [hoff] at h
    exact online_of_same tidy same h

end

/-- Whenever the name of the table stands for an id along the schedule, the tablets that this id has
then or later are tidy for the ranges. -/
def TidyAlong (store : Store ω) (table : TableName) (ranges : List KeyRange) (w : ω)
    (schedule : Schedule ω) : Prop :=
  ∀ i j, i ≤ j → ∀ id tablets, store.tableId (Schedule.worldAt w schedule i) table = .ok id →
    store.tabletsNow (Schedule.worldAt w schedule j) id = .ok tablets →
      Tablet.Tidy tablets ranges

end Store

/-- What is tidy along a schedule is so along what is left of it. -/
theorem Store.TidyAlong.rest {store : Store ω} {table : TableName} {ranges : List KeyRange} {w : ω}
    {made rest : Schedule ω} (h : store.TidyAlong table ranges w (made ++ rest)) :
    store.TidyAlong table ranges (Schedule.worldAfter w made) rest := by
  intro i j le id tablets known now
  rw [← Schedule.worldAt_append] at known now
  exact h _ _ (Nat.add_le_add_left le _) id tablets known now

/-! ## Plans -/

namespace Planning

open Step

section

variable {store : Store ω} {c : Collaborators (Cached ω)} {kind : BackendKind}
  {lookup : String → Result Json} {job job' : Job} {authorizations : List Json} {size : Int}
  {table : TableName} {scan : TableScan} {schedule : Schedule ω} {s t : Session (Cached ω)}

section

variable (hc : c.backend = .ofCatalog kind store.catalog)
  (names : ∀ host, c.canonical host = Effect.ofResult (lookup host)) (room : 1 ≤ size)
include hc names room

/-- A table is planned alike again by another job with the same settings. What the other tables of
that job are does not matter. -/
theorem follows_again (settings : job'.settings = job.settings) (beside : s.Beside t) :
    Follows Eq (planTable c job authorizations size table scan (schedule.map Locator.behind)) s
      (planTable c job' authorizations size table scan (schedule.map Locator.behind)) t := by
  refine follows_planTable hc (R := Eq) (fun id ranges _ normalized => ?_)
    (fun f b b' s t _ same beside => ?_) settings beside
  · exact ⟨ranges, normalized, fun j => store.agrees_refl _ _ _ _ _⟩
  · subst same
    obtain ⟨r, tells⟩ := Splitting.exists_tells_splits names f b scan
    exact Splitting.follows_make tells tells (fun _ h => h) room beside

variable {others : List KeyRange} (adjust : scan.adjust = false)
  (boolean : ∀ r ∈ scan.ranges, r.Boolean) (same : ∀ r, r ∈ others ↔ r ∈ scan.ranges)
include adjust boolean same

/-- The ranges of a table can be written in any order and any number of times: its splits are made
of the set of them. -/
theorem follows_reordered (tidy : store.TidyAlong table scan.ranges s.world.backing schedule)
    (settings : job'.settings = job.settings) (beside : s.Beside t) :
    Follows Eq (planTable c job authorizations size table scan (schedule.map Locator.behind)) s
      (planTable c job' authorizations size table { scan with ranges := others }
        (schedule.map Locator.behind)) t := by
  have same := KeyRange.requested_of_same same
  have boolean := KeyRange.boolean_requested boolean
  refine follows_planTable hc
    (R := Binning.Alike (nodeOf scan) (requested scan.ranges) (requested others))
    (fun id ranges known normalized => ?_) (fun f b b' s t checked alike beside => ?_)
    settings beside
  · rw [adjust, KeyRange.normalize_unadjusted] at normalized
    cases normalized
    rw [adjust]
    exact ⟨_, KeyRange.normalize_unadjusted others, fun j => Store.agrees_of_same
      (fun tablets now => (tidy 0 j (Nat.zero_le j) id tablets known now).requested) same scan _⟩
  · -- both binnings are made of the same ranges, and the splits are determined by these
    obtain ⟨tablets, tidy, covered, rfl, rfl⟩ := alike
    have batch := TableScan.batch_eq_false_of_check checked adjust
    refine Splitting.follows_make (Splitting.tells_unadjusted names f _ batch adjust)
      (Splitting.tells_unadjusted names f _ batch adjust) (fun ss made => ?_) room beside
    have sub (r : KeyRange) (hr : r ∈ requested others) : r ∈ requested scan.ranges :=
      (same r).mp hr
    rw [Splitting.wholesBy_eq_ok_iff tidy boolean covered] at made
    rw [Splitting.wholesBy_eq_ok_iff (tidy.of_subset sub) (fun r hr => boolean r (sub r hr))
      fun r hr => covered r (sub r hr)]
    exact made.of_same same

/-- Tables of which each is the same one, or the one whose ranges are written in another order, are
planned alike. -/
theorem follows_planTables {scans scans' : List (TableName × TableScan)}
    (each : List.Forall₂ (fun e e' => e' = e ∨
      e = (table, scan) ∧ e' = (table, { scan with ranges := others })) scans scans')
    (tidy : store.TidyAlong table scan.ranges s.world.backing schedule)
    (settings : job'.settings = job.settings) (beside : s.Beside t) :
    Follows Eq (planTables c job authorizations size scans (schedule.map Locator.behind)) s
      (planTables c job' authorizations size scans' (schedule.map Locator.behind)) t := by
  -- induction on the tables, for any two sessions beside one another
  induction each generalizing schedule s t with
  | nil => exact follows_pure rfl beside
  | @cons e e' scans scans' head _ ih =>
    have first : Follows Eq
        (planTable c job authorizations size e.1 e.2 (schedule.map Locator.behind)) s
        (planTable c job' authorizations size e'.1 e'.2 (schedule.map Locator.behind)) t := by
      rcases head with rfl | ⟨rfl, rfl⟩
      · exact follows_again hc names room settings beside
      · exact follows_reordered hc names room adjust boolean same tidy settings beside
    refine first.bind fun planned _ s₁ t₁ run related beside₁ => ?_
    subst related
    obtain ⟨ss, left⟩ := planned
    -- the pauses made for this table are those that the others do not make
    obtain ⟨made, rest, _, _, rfl, rfl, back, -⟩ := planTable_store hc names beside.known run
    refine (ih (back ▸ tidy.rest) beside₁).bind fun _ _ _ _ _ related beside₂ => ?_
    subst related
    exact follows_pure rfl beside₂

end

/-- A job with one of its tables' ranges in another order has the same plan. The other tables are
planned alike, and this one by the set of its ranges. -/
theorem follows_plan (hc : c.backend = .ofCatalog kind store.catalog)
    (names : ∀ host, c.canonical host = Effect.ofResult (lookup host))
    (distinct : job.scans.Distinct) (configured : (table, scan) ∈ job.scans)
    (adjust : scan.adjust = false) (boolean : ∀ r ∈ scan.ranges, r.Boolean)
    {others : List KeyRange} (same : ∀ r, r ∈ others ↔ r ∈ scan.ranges)
    (tidy : store.TidyAlong table scan.ranges s.world.backing schedule) (beside : s.Beside t) :
    Follows Eq (plan c job authorizations (schedule.map Locator.behind)) s
      (plan c { job with scans := job.scans.put table { scan with ranges := others } }
        authorizations (schedule.map Locator.behind)) t := by
  have each := Ledger.forall₂_put distinct configured { scan with ranges := others }
  have there : ¬ job.scans.isEmpty = true := by
    rw [List.isEmpty_iff]
    exact List.ne_nil_of_mem configured
  have there' : ¬ (job.scans.put table { scan with ranges := others }).isEmpty = true := by
    rw [List.isEmpty_iff]
    exact Ledger.alter_ne_nil _ _ _
  unfold plan
  rw [if_neg there, if_neg there']
  refine follows_ofResult_bind fun level leveled => ⟨level, leveled, ?_⟩
  refine follows_ofResult_bind fun book sized => ⟨book, sized, Follows.atLevel level ?_⟩
  have beside : Session.Beside { s with level := level.getD s.level }
      { t with level := level.getD t.level } := beside.rested ⟨rfl, rfl⟩ ⟨rfl, rfl⟩
  -- only the one table has its ranges in another order
  refine Follows.bind (R := Eq) (follows_planTables hc names
    (Settings.one_le_of_hostBookSize sized) adjust boolean same each tidy rfl beside)
      fun splits _ s₁ t₁ _ related beside₁ => ?_
  subst related
  refine (follows_note _ _ _ _ _ _ beside₁).bind fun _ _ _ _ _ _ beside₂ => ?_
  exact follows_pure rfl beside₂

/-! ### Splits of requested ranges -/

/-- The plan of a table that is not adjusted: one split for each requested range, with the tablets
that the store had at the last attempt. -/
theorem unclipped_planTable (hc : c.backend = .ofCatalog kind store.catalog)
    (names : ∀ host, c.canonical host = Effect.ofResult (lookup host)) (room : 1 ≤ size)
    (adjust : scan.adjust = false) (boolean : ∀ r ∈ scan.ranges, r.Boolean)
    {rest' : Schedule (Cached ω)} {s' : Session (Cached ω)} {ss : List Split}
    (hw : s.world.known.WellFormed)
    (h : outcome (planTable c job authorizations size table scan (schedule.map Locator.behind)) s =
      (.ok (ss, rest'), s')) :
    ∃ made rest id tablets, schedule = made ++ rest ∧ rest' = rest.map Locator.behind ∧
      store.tableId s.world.backing table = .ok id ∧
      store.tabletsNow (Schedule.worldAfter s.world.backing made) id = .ok tablets ∧
      (Tablet.Tidy tablets scan.ranges →
        Splitting.Unclipped lookup (nodeOf scan) ⟨table, id, Snapshot.ofScan scan authorizations⟩
          tablets (requested scan.ranges) ss) := by
  obtain ⟨checked, made, rest, id, ranges, tablets, s₃, e, e', -, -, known, now, normalized,
    covered, done⟩ := planTable_located hc hw h
  refine ⟨made, rest, id, tablets, e, e', known, now, fun tidy => ?_⟩
  rw [adjust, KeyRange.normalize_unadjusted] at normalized
  cases normalized
  have batch := TableScan.batch_eq_false_of_check checked adjust
  obtain ⟨_, run, -⟩ := Splitting.outcome_make_of_tells
    (Splitting.tells_unadjusted names _ _ batch adjust) room s₃
  rw [done, Prod.mk.injEq] at run
  exact (Splitting.wholesBy_eq_ok_iff tidy.requested (KeyRange.boolean_requested boolean)
    covered).mp run.1.symm

/-- If the tablets of a table do not overlap and can be compared with the ranges that are requested
of it, the plan of a job has one split for each of these ranges, or one for all keys if there are
none: in ascending order, whole, and at the hosts of the tablets that meet the range. The order of
the ranges and their number make no difference. -/
theorem unclipped_plan (hc : c.backend = .ofCatalog kind store.catalog)
    (names : ∀ host, c.canonical host = Effect.ofResult (lookup host))
    (distinct : job.scans.Distinct) {s' : Session (Cached ω)}
    (cache : s.world.known.WellFormed) {p : Plan}
    (h : outcome (plan c job authorizations (schedule.map Locator.behind)) s = (.ok p, s'))
    (configured : (table, scan) ∈ job.scans) (adjust : scan.adjust = false)
    (boolean : ∀ r ∈ scan.ranges, r.Boolean)
    (tidy : store.TidyAlong table scan.ranges s.world.backing schedule) :
    (∃ before made rest id tablets, schedule = before ++ made ++ rest ∧
      (∃ size s₁ s₂, s₁.world.backing = Schedule.worldAfter s.world.backing before ∧
        outcome (planTable c job authorizations size table scan
          ((made ++ rest).map Locator.behind)) s₁ =
            (.ok (p.splitsFor table, rest.map Locator.behind), s₂)) ∧
      store.tableId (Schedule.worldAfter s.world.backing before) table = .ok id ∧
      store.tabletsNow (Schedule.worldAfter s.world.backing (before ++ made)) id = .ok tablets ∧
      Splitting.Unclipped lookup (nodeOf scan) ⟨table, id, Snapshot.ofScan scan authorizations⟩
        tablets (requested scan.ranges) (p.splitsFor table)) ∧
    ∀ others : List KeyRange, (∀ r, r ∈ others ↔ r ∈ scan.ranges) →
      ∃ s'', outcome (plan c
        { job with scans := job.scans.put table { scan with ranges := others } } authorizations
          (schedule.map Locator.behind)) s = (.ok p, s'') := by
  constructor
  · -- the turn of the table tells which pauses came before it
    obtain ⟨before, left, rest', size, t, t', hs, room, back, hw, run⟩ :=
      exists_turn hc names distinct cache h configured
    rw [hs] at tidy
    obtain ⟨made, rest, id, tablets, rfl, rfl, known, now, unclipped⟩ :=
      unclipped_planTable hc names room adjust boolean hw run
    rw [back] at known now
    refine ⟨before, made, rest, id, tablets, ?_, ⟨size, t, t', back, run⟩, known, ?_, ?_⟩
    · rw [hs, List.append_assoc]
    · rw [Schedule.worldAfter_append]
      exact now
    · refine unclipped (tidy.rest 0 made.length (Nat.zero_le _) id tablets known ?_)
      rwa [Schedule.worldAt_length]
  · intro others same
    -- the run with the reordered ranges follows this one
    obtain ⟨p', s'', run, rfl, -⟩ := follows_plan hc names distinct configured adjust boolean same
      tidy (Session.Beside.refl cache) p s' h
    exact ⟨s'', run⟩

end

/-- A scan of ranges as they are. One of them is written twice. -/
def wholesScan : TableScan :=
  { TableScan.plain with
    adjust := false
    ranges := [.acrossHalves, .inLowerHalf, .acrossHalves] }

/-- The plan for such a scan of the table, whose upper tablet finds a place in the first pause. -/
def wholesRun (scan : TableScan) : Result Plan × Session (Cached Registry) :=
  outcome (plan Registry.collaborators ⟨[(.text "t", scan)], []⟩ []
      ([Registry.moveUpperHalf (some (.text "b:1"))].map Locator.behind))
    (Registry.staleSession .halfHosted)

/-- Along the schedule of the example the tablets are the two halves, which do not overlap. -/
theorem tidyAlong_halves :
    Registry.store.TidyAlong (.text "t") wholesScan.ranges .halfHosted
      [Registry.moveUpperHalf (some (.text "b:1"))] := by
  intro i j _ id tablets known now
  have known : id = .text "1" := by
    cases i with
    | zero =>
      cases known
      rfl
    | succ i =>
      unfold Schedule.worldAt at known
      rw [List.take_succ_cons, List.take_nil] at known
      cases known
      rfl
  subst known
  -- the two halves do not overlap, wherever they are hosted
  cases j with
  | zero =>
    cases now
    exact ⟨by decide, apart_halves, by decide⟩
  | succ j =>
    unfold Schedule.worldAt at now
    rw [List.take_succ_cons, List.take_nil] at now
    cases now
    exact ⟨by decide, apart_halves, by decide⟩

/-- Each of the two ranges has one split, and they can be written the other way round. One of them
was given twice. -/
theorem unclipped_halves : ∃ p s', wholesRun wholesScan = (.ok p, s') ∧
    (∃ id tablets, Splitting.Unclipped (fun host => .ok (.text host)) Tablet.host
      ⟨.text "t", id, Snapshot.ofScan wholesScan []⟩ tablets wholesScan.ranges
        (p.splitsFor (.text "t"))) ∧
    ∃ s'', wholesRun { wholesScan with ranges := [.inLowerHalf, .acrossHalves] } =
      (.ok p, s'') := by
  obtain ⟨p, s', planned⟩ : ∃ p s', wholesRun wholesScan = (.ok p, s') :=
    exists_of_isOk_outcome (by decide +kernel)
  have names (host : String) : Registry.collaborators.canonical host =
      Effect.ofResult (.ok (.text host)) := rfl
  have distinct : Ledger.Distinct [(Json.text "t", wholesScan)] := List.pairwise_singleton _ _
  have boolean : ∀ r ∈ wholesScan.ranges, r.Boolean := by
    intro r hr
    simp only [wholesScan, List.mem_cons, List.not_mem_nil, or_false] at hr
    rcases hr with rfl | rfl | rfl <;> exact ⟨⟨_, rfl⟩, ⟨_, rfl⟩⟩
  obtain ⟨⟨_, _, _, id, tablets, -, -, -, -, unclipped⟩, others⟩ :=
    unclipped_plan Registry.backend_collaborators names distinct
      (Registry.wellFormed_staleSession _) planned List.mem_cons_self rfl boolean
      tidyAlong_halves
  have same (r : KeyRange) :
      r ∈ [KeyRange.inLowerHalf, .acrossHalves] ↔ r ∈ wholesScan.ranges := by
    simp only [wholesScan, List.mem_cons, List.not_mem_nil, or_false]
    exact ⟨.inr, fun h => h.elim .inr fun h => h⟩
  have put (scan : TableScan) :
      Ledger.put [(Json.text "t", wholesScan)] (.text "t") scan = [(.text "t", scan)] := by
    unfold Ledger.put Ledger.alter
    rw [if_pos BEq.rfl]
  have again := others _ same
  rw [put] at again
  exact ⟨p, s', planned, ⟨id, tablets, unclipped⟩, again⟩

end Planning

end ScanPlanner
