import ScanPlanner.Proofs.Growth
import ScanPlanner.Proofs.Planning
import ScanPlanner.Proofs.Served

/-!
# Planning over a served line

As long as no pause is made, planning over a line to a service follows planning over the registry
that the service answers for (`Planning.tracks_plan`). What would happen in pauses does not matter
then, and it may be anything on either side.
-/

namespace ScanPlanner

variable {α β γ δ : Type} {serve : Service} {r : Registry} {R : α → β → Prop} {Q : γ → δ → Prop}

/-! ## Steps without pauses -/

/-- If the first step makes no pause, the second one follows it, and both only add to the trace. In
a pause the registry may change, and then the service tells something else. -/
structure Tracks (serve : Service) (r : Registry) (R : α → β → Prop)
    (x : Step (Cached Registry) α) (y : Step (Cached Line) β) : Prop where
  grows : x.Grows
  partner : ∀ s a s', outcome x s = (.ok a, s') → ∃ b, R a b
  follows : ∀ s, s.world.backing = r → (outcome x s).2.pauses = [] →
    FollowsAt serve .session R x y s

namespace Tracks

variable {x : Step (Cached Registry) α} {y : Step (Cached Line) β}
  {g : α → Step (Cached Registry) γ} {h : β → Step (Cached Line) δ}

/-- If no pause is made, none is made in the first part, nor in the second one. That the parts only
add to the trace gives the first of these. -/
theorem follows_bind {s : Session (Cached Registry)} (hs : s.world.backing = r)
    (none : (outcome (x >>= g) s).2.pauses = [])
    (hx : (outcome x s).2.pauses = [] → FollowsAt serve .session R x y s)
    (grows : ∀ a s', outcome x s = (.ok a, s') → (g a).Grows)
    (hg : ∀ a b, R a b → Tracks serve r Q (g a) (h b)) :
    FollowsAt serve .session Q (x >>= g) (y >>= h) s := by
  rw [outcome_bind] at none
  rcases hrun : outcome x s with ⟨f | a, s₁⟩
  · rw [hrun] at none hx
    refine (hx none).bind fun a b s' _ ran => ?_
    rw [hrun] at ran
    cases ran
  · rw [hrun] at none hx
    -- the rest takes nothing back, so there was no pause before it
    have first := hx (Session.pauses_eq_nil (grows a s₁ hrun s₁) none)
    refine first.bind fun a' b s' hab ran => ?_
    rw [hrun] at ran
    cases ran
    have kept : s₁.world.backing = s.world.backing := by
      have kept := first.1
      rw [hrun] at kept
      exact kept
    exact (hg a b hab).follows s₁ (kept.trans hs) none

/-- Values that are related track each other, and nothing is asked for them. -/
theorem pure {a : α} {b : β} (hab : R a b) : Tracks serve r R (Pure.pure a) (Pure.pure b) where
  grows := Step.grows_pure a
  partner _ _ _ ran := by
    cases ran
    exact ⟨b, hab⟩
  follows _ _ _ := .pure hab

theorem throw (f : Failure) : Tracks serve r R (MonadExcept.throw f) (MonadExcept.throw f) where
  grows := Step.grows_throw f
  partner _ _ _ ran := by cases ran
  follows _ _ _ := .throw f

/-- Parts that track each other do so one after the other. What the first part ends with has a
partner, so the second part can only add to the trace. -/
theorem bind (hx : Tracks serve r R x y) (hg : ∀ a b, R a b → Tracks serve r Q (g a) (h b)) :
    Tracks serve r Q (x >>= g) (y >>= h) where
  grows := Step.grows_bind_of_ok hx.grows fun s a s' ran => by
    obtain ⟨b, hab⟩ := hx.partner s a s' ran
    exact (hg a b hab).grows
  partner s c s'' ran := by
    obtain ⟨a, s', hrun, ran⟩ := outcome_bind_ok.mp ran
    obtain ⟨b, hab⟩ := hx.partner s a s' hrun
    exact (hg a b hab).partner s' c s'' ran
  follows s hs none := by
    refine follows_bind hs none (hx.follows s hs) (fun a s' ran => ?_) hg
    obtain ⟨b, hab⟩ := hx.partner s a s' ran
    exact (hg a b hab).grows

/-- A step that neither asks nor pauses. -/
theorem of_local {x : Step (Cached Registry) α} {y : Step (Cached Line) α} (grows : x.Grows)
    (follows : ∀ s, FollowsAt serve .session Eq x y s) : Tracks serve r Eq x y where
  grows := grows
  partner _ a _ _ := ⟨a, rfl⟩
  follows s _ _ := follows s

/-- Steps that track each other are alike. -/
def likeness (serve : Service) (r : Registry) : Likeness (Cached Registry) (Cached Line) where
  Like := Tracks serve r
  pure := pure
  throw := throw
  bind := bind
  record e := of_local (Step.grows_record e) fun _ => .of_line rfl rfl (fun _ => rfl) (.ok rfl)
  note severity source text := of_local (Step.grows_note severity source text) fun _ =>
    .of_line rfl rfl (fun _ => rfl) (.ok rfl)
  draw c c' bound same := of_local (Step.grows_draw c bound) fun s => by
    refine .of_line (r := .ok (c.numbers s.drawn % bound).toNat) rfl rfl (fun line => ?_) (.ok rfl)
    unfold Step.draw
    rw [same]
    rfl
  level := of_local (fun _ => List.prefix_rfl) fun s =>
    .of_line (r := .ok s.level) rfl rfl (fun _ => rfl) (.ok rfl)

/-- The same, where the first parts end with the same values. -/
theorem bind_eq {x : Step (Cached Registry) α} {y : Step (Cached Line) α}
    {g : α → Step (Cached Registry) γ} {h : α → Step (Cached Line) δ}
    (hx : Tracks serve r Eq x y) (hg : ∀ a, Tracks serve r Q (g a) (h a)) :
    Tracks serve r Q (x >>= g) (y >>= h) :=
  hx.bind fun a _ e => e ▸ hg a

theorem ofResult (a : Result α) : Tracks serve r Eq (Step.ofResult a) (Step.ofResult a) :=
  (likeness serve r).ofResult a

/-- A collaborator that follows from every scene over the registry tracks the other one. -/
theorem perform {x : Effect (Cached Registry) α} {y : Effect (Cached Line) α}
    (h : ∀ s : Scene (Cached Registry), s.world.backing = r → FollowsAt serve .cached Eq x y s) :
    Tracks serve r Eq (Step.perform x) (Step.perform y) where
  grows := Step.grows_perform x
  partner _ a _ _ := ⟨a, rfl⟩
  follows s hs _ := .perform (h ⟨s.world, []⟩ hs)

/-! ### Attempts and pauses -/

/-- Behind a pause nothing is said, because the store may be another one then. -/
theorem after_pause {x : Step (Cached Registry) α} (grows : x.Grows) (millis : Nat)
    (y : Step (Cached Line) α) :
    Tracks serve r Eq (Step.record (.paused millis) >>= fun _ => x) y where
  grows := (Step.grows_record _).bind fun _ => grows
  partner _ a _ _ := ⟨a, rfl⟩
  -- the pause is in the trace, so a run without pauses does not get here
  follows s _ none := by
    have before := Session.pauses_eq_nil (grows (s.record (.paused millis))) none
    rw [Session.pauses_record] at before
    exact absurd before (List.append_ne_nil_of_right_ne_nil _ (List.cons_ne_nil _ _))

variable {c : Collaborators (Cached Registry)} {c' : Collaborators (Cached Line)}
  {Id : TableId → Prop}

/-- A pause that is too long fails on both sides; any other one is in the trace, and there nothing
has to be shown any more. -/
theorem pause (p : Partners (likeness serve r) Id c c') (b : Backoff) (count : Nat)
    (meanwhile : Option (Effect (Cached Registry) Unit))
    (meanwhile' : Option (Effect (Cached Line) Unit)) :
    Tracks serve r Eq (b.pause c count meanwhile) (b.pause c' count meanwhile') := by
  unfold Backoff.pause
  refine bind_eq (p.delay b) fun millis => ?_
  refine bind_eq ((likeness serve r).note _ _ _) fun _ => ?_
  by_cases long : (Backoff.seconds? millis).isNone = true
  · rw [if_pos long, if_pos long]
    exact (likeness serve r).throw_bind _
  · rw [if_neg long, if_neg long]
    refine after_pause ?_ millis _
    cases meanwhile with
    | none => exact Step.grows_throw_bind _
    | some effect => exact (Step.grows_perform effect).bind fun _ => Step.grows_pure millis

/-- A pause with something after it: if no pause was made, the pause failed on both sides, and what
comes after it does not matter. -/
theorem pause_bind (p : Partners (likeness serve r) Id c c') (b : Backoff) (count : Nat)
    (meanwhile : Option (Effect (Cached Registry) Unit))
    (meanwhile' : Option (Effect (Cached Line) Unit))
    {g : Nat → Step (Cached Registry) γ} (h : Nat → Step (Cached Line) δ)
    (grows : ∀ millis, (g millis).Grows) (partner : ∀ a : γ, ∃ b, Q a b) :
    Tracks serve r Q (b.pause c count meanwhile >>= g) (b.pause c' count meanwhile' >>= h) where
  grows := (Step.grows_pause c b count meanwhile).bind grows
  partner _ a _ _ := partner a
  follows s hs none := by
    rw [outcome_bind] at none
    rcases hrun : outcome (b.pause c count meanwhile) s with ⟨f | millis, s₁⟩
    · rw [hrun] at none
      have first := (pause p b count meanwhile meanwhile').follows s hs (by rwa [hrun])
      refine first.bind fun a b s' _ ran => ?_
      rw [hrun] at ran
      cases ran
    · -- a pause that was made would be in the trace
      rw [hrun] at none
      have made := Step.pauses_ne_nil_of_pause hrun
      exact absurd (Session.pauses_eq_nil (grows millis s₁) none) made

/-- The first attempt decides, or a pause follows it. So only the first attempt has to be
followed. -/
theorem retry (p : Partners (likeness serve r) Id c c') (b : Backoff)
    {attempt : Step (Cached Registry) (Option Binning)}
    {attempt' : Step (Cached Line) (Option Binning)} (h : Tracks serve r Eq attempt attempt')
    (count : Nat) (schedule : Schedule (Cached Registry)) (schedule' : Schedule (Cached Line)) :
    Tracks serve r (fun found found' => found'.1 = found.1)
      (Locating.retry c b attempt count schedule)
      (Locating.retry c' b attempt' count schedule') := by
  rw [Step.retry_eq, Step.retry_eq]
  refine bind_eq h fun found => ?_
  cases found with
  | some binning => exact pure rfl
  | none =>
    exact pause_bind p b count _ _ _ (fun _ => Step.grows_resume h.grows count schedule)
      fun found => ⟨(found.1, []), rfl⟩

/-- Ranges are located alike as long as no pause is made, whatever the schedules are. -/
theorem locate (p : Partners (likeness serve r) Id c c') (b : Backoff) {id : TableId} (hid : Id id)
    (ranges : List KeyRange) (offline : Bool) (schedule : Schedule (Cached Registry))
    (schedule' : Schedule (Cached Line)) :
    Tracks serve r (fun found found' => found'.1 = found.1)
      (Locating.locate c b id ranges offline schedule)
      (Locating.locate c' b id ranges offline schedule') := by
  cases offline with
  | true => exact retry p b (p.attemptOffline hid ranges) 1 schedule schedule'
  | false => exact retry p b (p.attemptOnline hid ranges) 1 schedule schedule'

/-! ### A table -/

/-- Failures are reported under the name of the same table on both sides, so failures that are equal
stay so. -/
theorem forTable {x : Step (Cached Registry) α} {y : Step (Cached Line) β} (table : TableName)
    (h : Tracks serve r R x y) :
    Tracks serve r R (Step.forTable table x) (Step.forTable table y) where
  grows := h.grows.forTable table
  partner s a s' ran := h.partner s a s' (Planning.forTable_eq_ok ran)
  follows s hs none := by
    rw [Step.session_forTable] at none
    exact (h.follows s hs none).tryCatch fun f s' _ => .throw _

/-- The log has the same level on both sides. -/
theorem atLevel {x : Step (Cached Registry) α} {y : Step (Cached Line) β} (level : Option Int)
    (h : Tracks serve r R x y) :
    Tracks serve r R (Step.atLevel level x) (Step.atLevel level y) where
  grows := h.grows.atLevel level
  partner s a s' ran := by
    rw [Step.outcome_atLevel, Prod.mk.injEq] at ran
    exact h.partner { s with level := level.getD s.level } a _ (Prod.ext ran.1 rfl)
  follows s hs none := .atLevel level (h.follows { s with level := level.getD s.level } hs none)

end Tracks

/-! ## Planning -/

namespace Planning

variable {c : Collaborators (Cached Registry)} {c' : Collaborators (Cached Line)}

/-- Planning a table whose id is known takes nothing back from the trace. -/
theorem grows_planWithId {ω : Type} (c : Collaborators ω) (job : Job) (authorizations : List Json)
    (bookSize : Int) (table : TableName) (scan : TableScan) (schedule : Schedule ω) (id : TableId) :
    (planWithId c job authorizations bookSize table scan schedule id).Grows := by
  refine (Step.grows_ofResult _).bind fun ranges => ?_
  refine (Step.grows_note _ _ _).bind fun _ => ?_
  refine (Step.grows_ofResult _).bind fun pauses => ?_
  refine (Step.grows_locate c pauses id ranges scan.offline schedule).bind fun found => ?_
  exact (Step.grows_make c _ found.1 scan bookSize).bind fun _ => Step.grows_pure _

section

variable (p : Partners (Tracks.likeness serve r) Json.IsSegment c c')
  (tableId : ∀ {name : TableName}, name.IsSegment → ∀ s : Scene (Cached Registry),
    s.world.backing = r → FollowsAt serve .cached (fun id id' => id' = id ∧ id.IsSegment)
      (c.backend.locator.tableId name) (c'.backend.locator.tableId name) s)
  (job : Job) (authorizations : List Json) (bookSize : Int)
include p

/-- Planning a table whose id is known tracks itself over the line. What is left of the schedules
may differ, the splits do not. -/
theorem tracks_planWithId (table : TableName) (scan : TableScan)
    (schedule : Schedule (Cached Registry)) (schedule' : Schedule (Cached Line)) {id : TableId}
    (hid : id.IsSegment) :
    Tracks serve r (fun planned planned' => planned'.1 = planned.1)
      (planWithId c job authorizations bookSize table scan schedule id)
      (planWithId c' job authorizations bookSize table scan schedule' id) := by
  refine (Tracks.ofResult _).bind_eq fun ranges => ?_
  refine Tracks.bind_eq ((Tracks.likeness serve r).note _ _ _) fun _ => ?_
  refine (Tracks.ofResult _).bind_eq fun pauses => ?_
  refine (Tracks.locate p pauses hid ranges scan.offline schedule schedule').bind ?_
  rintro ⟨binning, rest⟩ ⟨_, rest'⟩ rfl
  exact Tracks.bind_eq (p.make _ _ scan bookSize) fun _ => .pure rfl

include tableId

/-- Planning a table tracks itself over the line if its name can be part of a path. The id that it
is told is part of further paths, and is a text. -/
theorem tracks_planTable {table : TableName} (segment : table.IsSegment) (scan : TableScan)
    (schedule : Schedule (Cached Registry)) (schedule' : Schedule (Cached Line)) :
    Tracks serve r (fun planned planned' => planned'.1 = planned.1)
      (planTable c job authorizations bookSize table scan schedule)
      (planTable c' job authorizations bookSize table scan schedule') := by
  rw [planTable_eq, planTable_eq]
  refine (Tracks.ofResult _).bind_eq fun _ => Tracks.forTable table ?_
  -- only ids from the registry at hand are known to have a partner, so `Tracks.bind` does not apply
  have grows (id : TableId) :=
    grows_planWithId c job authorizations bookSize table scan schedule id
  refine ⟨(Step.grows_ask _ _ _).bind grows, fun _ planned _ _ => ⟨(planned.1, []), rfl⟩, ?_⟩
  intro s hs none
  refine Tracks.follows_bind (R := fun id id' => id' = id ∧ id.IsSegment) hs none (fun _ => ?_)
    (fun id _ _ => grows id) ?_
  · have record : FollowsAt serve .session Eq (Step.record (.asked .tableId table))
        (Step.record (.asked .tableId table)) s := .of_line rfl rfl (fun _ => rfl) (.ok rfl)
    refine record.bind fun _ _ s' _ ran => .perform (tableId segment _ ?_)
    cases ran
    exact hs
  · rintro id _ ⟨rfl, hid⟩
    exact tracks_planWithId p job authorizations bookSize table scan schedule schedule' hid

/-- So do some tables in turn: each is planned with what the one before it has left of its
schedule. -/
theorem tracks_planTables {scans : List (TableName × TableScan)}
    (segments : ∀ entry ∈ scans, entry.1.IsSegment) (schedule : Schedule (Cached Registry))
    (schedule' : Schedule (Cached Line)) :
    Tracks serve r Eq (planTables c job authorizations bookSize scans schedule)
      (planTables c' job authorizations bookSize scans schedule') := by
  induction scans generalizing schedule schedule' with
  | nil => exact .pure rfl
  | cons entry scans ih =>
    obtain ⟨first, others⟩ := List.forall_mem_cons.mp segments
    refine (tracks_planTable p tableId job authorizations bookSize first entry.2 schedule
      schedule').bind ?_
    rintro ⟨splits, rest⟩ ⟨_, rest'⟩ rfl
    exact (ih others rest rest').bind_eq fun _ => .pure rfl

/-- A plan that takes no pause is the same over the line. Settings and checks are the same on both
sides, as they ask nothing. -/
theorem tracks_plan (segments : ∀ entry ∈ job.scans, entry.1.IsSegment)
    (schedule : Schedule (Cached Registry)) (schedule' : Schedule (Cached Line)) :
    Tracks serve r Eq (plan c job authorizations schedule)
      (plan c' job authorizations schedule') := by
  unfold plan
  by_cases empty : job.scans.isEmpty = true
  · rw [if_pos empty, if_pos empty]
    exact (Tracks.likeness serve r).throw_bind _
  · rw [if_neg empty, if_neg empty]
    refine (Tracks.ofResult _).bind_eq fun level => ?_
    refine (Tracks.ofResult _).bind_eq fun book => Tracks.atLevel level ?_
    refine (tracks_planTables p tableId job authorizations book.2 segments schedule
      schedule').bind_eq fun splits => ?_
    exact Tracks.bind_eq ((Tracks.likeness serve r).note _ _ _) fun _ => .pure rfl

end

end Planning

/-! ## Collaborators over a catalog -/

/-- The collaborators in front of a catalog. Hosts have the names that a lookup gives. -/
def Collaborators.ofCatalog {ω : Type} (kind : BackendKind) (c : Catalog ω)
    (lookup : String → Result Json) (numbers : Nat → Int) : Collaborators (Cached ω) where
  backend := .ofCatalog kind c
  canonical host := Effect.ofResult (lookup host)
  numbers := numbers

namespace Catalog.Follows

variable {c : Catalog Line} (h : c.Follows serve r) (kind kind' : BackendKind)
  (lookup : String → Result Json) (numbers : Nat → Int)
include h

/-- In front of a catalog that follows the registry, the collaborators are partners of those in
front of the registry. -/
theorem partners : Partners (Tracks.likeness serve r) Json.IsSegment
    (.ofCatalog kind Registry.catalog lookup numbers) (.ofCatalog kind' c lookup numbers) where
  numbers := rfl
  canonical host := Tracks.perform fun s _ => .ofResult (lookup host) s
  resolve hid ranges := Tracks.perform fun s hs => by
    subst hs
    exact h.resolve hid ranges
  invalidate hid := Tracks.perform fun s _ => invalidate hid
  tableExists hid := Tracks.perform fun s hs => by
    subst hs
    exact .behind (h.tableExists hid s.notes)
  tableState hid := Tracks.perform fun s hs => by
    subst hs
    exact .behind (h.tableState hid s.notes)
  binOffline hid ranges := Tracks.perform fun s hs => by
    subst hs
    exact .behind (h.bin hid ranges s.notes)

/-- Planning over the catalog follows planning over the registry, for any job whose tables have
names that can be asked for. -/
theorem plan (job : Job) (authorizations : List Json)
    (segments : ∀ entry ∈ job.scans, entry.1.IsSegment) (schedule : Schedule (Cached Registry))
    (schedule' : Schedule (Cached Line)) :
    Tracks serve r Eq
      (Planning.plan (.ofCatalog kind Registry.catalog lookup numbers) job authorizations schedule)
      (Planning.plan (.ofCatalog kind' c lookup numbers) job authorizations schedule') := by
  refine Planning.tracks_plan (h.partners kind kind' lookup numbers) (fun segment s hs => ?_) job
    authorizations segments schedule schedule'
  subst hs
  exact .behind (h.tableId segment s.notes)

end Catalog.Follows

end ScanPlanner
