import ScanPlanner.Proofs.Likeness
import ScanPlanner.Proofs.Store
import ScanPlanner.Service.Catalog

/-!
# Served lines

A service answers each request that it gets (`Service`). What reads its data from a line to the
service is compared with what reads them from a registry: the first follows the second if it ends in
the same way, once each request that it sends has been answered by the service (`FollowsAt`).
Putting things together keeps this, so a locator and the assignment of offline tables follow the
ones that read the registry, as soon as the questions to the catalog do (`Catalog.Follows`). -/

namespace ScanPlanner

variable {α β γ δ σ τ : Type}

/-- How a service answers a request, which may depend on how many there were before. Nothing else
about it is known. -/
abbrev Service := Nat → Request → Response

namespace Service

/-- The answers to requests that are sent one after the other, after so many others. -/
def answers (serve : Service) : Nat → List Request → List Answer
  | _, [] => []
  | before, q :: requests => .response (serve before q) :: answers serve (before + 1) requests

/-- The answers to further requests are those to requests that come after the first ones. A service
may answer by how many there were before. -/
theorem answers_append (serve : Service) (before : Nat) (requests more : List Request) :
    serve.answers before (requests ++ more) =
      serve.answers before requests ++ serve.answers (before + requests.length) more := by
  induction requests generalizing before with
  | nil => rfl
  | cons q requests ih =>
    rw [List.cons_append, answers, answers, ih, List.cons_append, List.length_cons,
      Nat.add_right_comm, Nat.add_assoc]

end Service

/-! ## After a result -/

/-- Goes on with a value, and ends with a failure. -/
def onward (g : α → ExceptT Failure (StateM σ) β) : Result α → ExceptT Failure (StateM σ) β
  | .ok a => g a
  | .error f => throw f

/-- Ends with a value, and goes on after a failure. -/
def rescue (g : Failure → ExceptT Failure (StateM σ) α) :
    Result α → ExceptT Failure (StateM σ) α
  | .ok a => pure a
  | .error f => g f

theorem outcome_onward (x : ExceptT Failure (StateM σ) α) (g : α → ExceptT Failure (StateM σ) β)
    (s : σ) : outcome (x >>= g) s = outcome (onward g (outcome x s).1) (outcome x s).2 := by
  rw [outcome_bind]
  rcases outcome x s with ⟨f | a, s'⟩ <;> rfl

/-- Catching a failure of a step is going on with its result, in the state that it leaves. -/
theorem outcome_rescue (x : ExceptT Failure (StateM σ) α)
    (g : Failure → ExceptT Failure (StateM σ) α) (s : σ) :
    outcome (tryCatch x g) s = outcome (rescue g (outcome x s).1) (outcome x s).2 := by
  rw [outcome_tryCatch]
  rcases outcome x s with ⟨f | a, s'⟩ <;> rfl

/-! ## From a registry to a line -/

/-- States that hold a registry, and the same ones with a line in its place. The scenes of questions
and the sessions of plans are both of this kind. -/
structure Swap (σ τ : Type) where
  registry : σ → Registry
  onto : σ → Line → τ

namespace Swap

def scene : Swap (Scene Registry) (Scene Line) where
  registry s := s.world
  onto s line := ⟨line, s.notes⟩

/-- What is known of the tablets is the same on both sides. -/
def cached : Swap (Scene (Cached Registry)) (Scene (Cached Line)) where
  registry s := s.world.backing
  onto s line := ⟨⟨line, s.world.known⟩, s.notes⟩

def session : Swap (Session (Cached Registry)) (Session (Cached Line)) where
  registry s := s.world.backing
  onto s line := ⟨⟨line, s.world.known⟩, s.level, s.drawn, s.trace⟩

end Swap

/-- Begun in `s`, the first one leaves the registry as it is, and the second one, begun in the same
state with a line to the service, ends in the same way. The requests that it sends meanwhile are the
ones that the service has answered. -/
def FollowsAt (serve : Service) (swap : Swap σ τ) (R : α → β → Prop)
    (x : ExceptT Failure (StateM σ) α) (y : ExceptT Failure (StateM τ) β) (s : σ) : Prop :=
  swap.registry (outcome x s).2 = swap.registry s ∧
    ∀ sent logged, ∃ requests logged' result, Agree R (outcome x s).1 result ∧ ∀ rest,
      outcome y (swap.onto s ⟨serve.answers sent.length requests ++ rest, sent, logged⟩) =
        (result, swap.onto (outcome x s).2 ⟨rest, sent ++ requests, logged'⟩)

namespace FollowsAt

variable {serve : Service} {swap : Swap σ τ} {R R' : α → β → Prop} {Q : γ → δ → Prop}
  {x : ExceptT Failure (StateM σ) α} {y : ExceptT Failure (StateM τ) β} {s s' : σ}

/-- Results that agree in one way agree in any weaker way. -/
theorem imp (hx : FollowsAt serve swap R x y s) (hR : ∀ a b, R a b → R' a b) :
    FollowsAt serve swap R' x y s := by
  refine ⟨hx.1, fun sent logged => ?_⟩
  obtain ⟨requests, logged', result, agree, run⟩ := hx.2 sent logged
  exact ⟨requests, logged', result, agree.imp hR, run⟩

/-- Nothing is asked, whatever the line. So the result is there at once, and the line stays as it
is. -/
theorem of_line {r : Result α} {r' : Result β} (hx : outcome x s = (r, s'))
    (kept : swap.registry s' = swap.registry s)
    (hy : ∀ line, outcome y (swap.onto s line) = (r', swap.onto s' line)) (agree : Agree R r r') :
    FollowsAt serve swap R x y s := by
  unfold FollowsAt
  rw [hx]
  refine ⟨kept, fun sent logged => ⟨[], logged, r', agree, fun rest => ?_⟩⟩
  rw [List.append_nil]
  exact hy _

/-- What runs in the same way can be taken instead. Steps that differ only in how they are written
are exchanged with this. -/
theorem congr {x' : ExceptT Failure (StateM σ) α} {y' : ExceptT Failure (StateM τ) β}
    (hx : outcome x' s = outcome x s)
    (hy : ∀ line, outcome y' (swap.onto s line) = outcome y (swap.onto s line))
    (h : FollowsAt serve swap R x y s) : FollowsAt serve swap R x' y' s := by
  unfold FollowsAt at h ⊢
  rw [hx]
  simp only [hy]
  exact h

theorem pure {a : α} {b : β} (hab : R a b) :
    FollowsAt serve swap R (Pure.pure a) (Pure.pure b) s :=
  of_line rfl rfl (fun _ => rfl) (.ok hab)

theorem throw (f : Failure) : FollowsAt serve swap R (MonadExcept.throw f)
    (MonadExcept.throw f) s :=
  of_line rfl rfl (fun _ => rfl) (.error f)

/-- What is done after both of them, with their results at hand, be they values or failures.
Binding, rescue and cleaning up are all of this form. -/
theorem andThen {x' : ExceptT Failure (StateM σ) γ} {y' : ExceptT Failure (StateM τ) δ}
    (k : Result α → ExceptT Failure (StateM σ) γ) (k' : Result β → ExceptT Failure (StateM τ) δ)
    (hx : FollowsAt serve swap R x y s)
    (run : outcome x' s = outcome (k (outcome x s).1) (outcome x s).2)
    (run' : ∀ t, outcome y' t = outcome (k' (outcome y t).1) (outcome y t).2)
    (next : ∀ r', Agree R (outcome x s).1 r' →
      FollowsAt serve swap Q (k (outcome x s).1) (k' r') (outcome x s).2) :
    FollowsAt serve swap Q x' y' s := by
  unfold FollowsAt
  rw [run]
  constructor
  · -- the registry stays what it is in both parts
    obtain ⟨_, _, r', agree, -⟩ := hx.2 [] []
    exact (next r' agree).1.trans hx.1
  · intro sent logged
    obtain ⟨requests, logged', r', agree, line⟩ := hx.2 sent logged
    obtain ⟨more, logged'', r'', agree', line'⟩ := (next r' agree).2 (sent ++ requests) logged'
    refine ⟨requests ++ more, logged'', r'', agree', fun rest => ?_⟩
    -- the answers to the second requests are the rest of the first answers
    rw [run', Service.answers_append, List.append_assoc, line, ← List.length_append, line',
      List.append_assoc]

/-- One part after the other: if the first parts follow each other, so do the second parts, from any
values that are related. -/
theorem bind {g : α → ExceptT Failure (StateM σ) γ} {h : β → ExceptT Failure (StateM τ) δ}
    (hx : FollowsAt serve swap R x y s)
    (hg : ∀ a b s', R a b → outcome x s = (.ok a, s') → FollowsAt serve swap Q (g a) (h b) s') :
    FollowsAt serve swap Q (x >>= g) (y >>= h) s := by
  refine andThen (onward g) (onward h) hx (outcome_onward x g s) (outcome_onward y h) ?_
  intro r' agree
  rcases hrun : outcome x s with ⟨r, s'⟩
  rw [hrun] at agree
  cases agree with
  | ok hab => exact hg _ _ s' hab hrun
  | error f => exact throw f

/-- After a failure both sides go on, each with its own rescue; a value stays what it is. Both sides
fail together, as their results agree. -/
theorem tryCatch {g : Failure → ExceptT Failure (StateM σ) α}
    {h : Failure → ExceptT Failure (StateM τ) β} (hx : FollowsAt serve swap R x y s)
    (hg : ∀ f s', outcome x s = (.error f, s') → FollowsAt serve swap R (g f) (h f) s') :
    FollowsAt serve swap R (MonadExcept.tryCatch x g) (MonadExcept.tryCatch y h) s := by
  refine andThen (rescue g) (rescue h) hx (outcome_rescue x g s) (outcome_rescue y h) ?_
  intro r' agree
  rcases hrun : outcome x s with ⟨r, s'⟩
  rw [hrun] at agree
  cases agree with
  | ok hab => exact pure hab
  | error f => exact hg f s' hrun

/-- A value or a failure that is known on both sides. -/
theorem of_result (r : Result α) (hx : outcome x s = (r, s)) {y : ExceptT Failure (StateM τ) α}
    (hy : ∀ t, outcome y t = (r, t)) : FollowsAt serve swap Eq x y s := by
  refine of_line hx rfl (fun _ => hy _) ?_
  cases r with
  | ok a => exact .ok rfl
  | error f => exact .error f

end FollowsAt

namespace FollowsAt

variable {serve : Service} {R : α → β → Prop}

theorem ofResult {ω ω' : Type} {swap : Swap (Scene ω) (Scene ω')} (r : Result α) (s : Scene ω) :
    FollowsAt serve swap Eq (Effect.ofResult r) (Effect.ofResult r) s :=
  of_result r (Effect.outcome_ofResult r s) (Effect.outcome_ofResult r)

theorem note (n : Note) (s : Scene (Cached Registry)) :
    FollowsAt serve .cached Eq (Effect.note n) (Effect.note n) s :=
  of_line rfl rfl (fun _ => rfl) (.ok rfl)

/-- What asks the world behind the cache follows if it does so without the cache, which it leaves
alone. -/
theorem behind {x : Effect Registry α} {y : Effect Line β} {s : Scene (Cached Registry)}
    (h : FollowsAt serve .scene R x y ⟨s.world.backing, s.notes⟩) :
    FollowsAt serve .cached R (Locator.behind x) (Locator.behind y) s := by
  refine ⟨h.1, fun sent logged => ?_⟩
  obtain ⟨requests, logged', result, agree, run⟩ := h.2 sent logged
  refine ⟨requests, logged', result, agree, fun rest => ?_⟩
  -- the cache stands beside the line, and only the line moves
  have inner (line : Line) : outcome (Locator.behind y) (Swap.cached.onto s line) =
      ((outcome y ⟨line, s.notes⟩).1, ⟨⟨(outcome y ⟨line, s.notes⟩).2.world, s.world.known⟩,
        (outcome y ⟨line, s.notes⟩).2.notes⟩) := rfl
  have run : outcome y ⟨⟨serve.answers sent.length requests ++ rest, sent, logged⟩, s.notes⟩ = _ :=
    run rest
  rw [inner, run]
  rfl

/-- A collaborator that follows makes a step that follows: what it notes goes to the log of the
session, which is the same on both sides. -/
theorem perform {x : Effect (Cached Registry) α} {y : Effect (Cached Line) β}
    {s : Session (Cached Registry)} (h : FollowsAt serve .cached R x y ⟨s.world, []⟩) :
    FollowsAt serve .session R (Step.perform x) (Step.perform y) s := by
  refine ⟨h.1, fun sent logged => ?_⟩
  obtain ⟨requests, logged', result, agree, run⟩ := h.2 sent logged
  refine ⟨requests, logged', result, agree, fun rest => ?_⟩
  have inner (line : Line) : outcome (Step.perform y) (Swap.session.onto s line) =
      ((outcome y ⟨⟨line, s.world.known⟩, []⟩).1,
        { Swap.session.onto s line with
          world := (outcome y ⟨⟨line, s.world.known⟩, []⟩).2.world }.log
          (outcome y ⟨⟨line, s.world.known⟩, []⟩).2.notes) := rfl
  have run : outcome y ⟨⟨⟨serve.answers sent.length requests ++ rest, sent, logged⟩,
      s.world.known⟩, []⟩ = _ := run rest
  rw [inner, run]
  rfl

/-- A step that follows does so at any level of the log, and both sides have their own levels back
afterwards. -/
theorem atLevel {x : Step (Cached Registry) α} {y : Step (Cached Line) β} (level : Option Int)
    {s : Session (Cached Registry)}
    (h : FollowsAt serve .session R x y { s with level := level.getD s.level }) :
    FollowsAt serve .session R (Step.atLevel level x) (Step.atLevel level y) s := by
  refine ⟨h.1, fun sent logged => ?_⟩
  obtain ⟨requests, logged', result, agree, run⟩ := h.2 sent logged
  refine ⟨requests, logged', result, agree, fun rest => ?_⟩
  have inner (line : Line) : outcome (Step.atLevel level y) (Swap.session.onto s line) =
      ((outcome y (Swap.session.onto { s with level := level.getD s.level } line)).1,
        { (outcome y (Swap.session.onto { s with level := level.getD s.level } line)).2 with
          level := s.level }) := rfl
  rw [inner, run]
  rfl

end FollowsAt

/-! ## Catalogs -/

/-- A text that can be part of a path. -/
def Json.IsSegment (v : Json) : Prop := ∃ s, v = .text s ∧ Text.isWhole s = true

theorem Json.IsSegment.isScalar {v : Json} (h : v.IsSegment) : v.isScalar = true := by
  obtain ⟨s, rfl, -⟩ := h
  rfl

/-- With the answers of the service, the questions to the catalog end as those to the registry. It
is asked only of names and ids that can be part of a path. -/
structure Catalog.Follows (c : Catalog Line) (serve : Service) (r : Registry) : Prop where
  tableId : ∀ {name : TableName}, name.IsSegment → ∀ notes,
    FollowsAt serve .scene (fun id id' => id' = id ∧ id.IsSegment)
      (Registry.catalog.tableId name) (c.tableId name) ⟨r, notes⟩
  tableExists : ∀ {id : TableId}, id.IsSegment → ∀ notes,
    FollowsAt serve .scene Eq (Registry.catalog.tableExists id) (c.tableExists id) ⟨r, notes⟩
  tableState : ∀ {id : TableId}, id.IsSegment → ∀ notes,
    FollowsAt serve .scene Eq (Registry.catalog.tableState id) (c.tableState id) ⟨r, notes⟩
  tablets : ∀ {id : TableId}, id.IsSegment → ∀ notes,
    FollowsAt serve .scene Eq (Registry.catalog.tablets id) (c.tablets id) ⟨r, notes⟩

/-! ### Locators -/

/-- Keeping what was found asks nothing, and fails alike if the cache has no room for anything. Both
caches are the same before and after. -/
theorem FollowsAt.keep {serve : Service} (id : TableId) (found : Option (List Tablet))
    (s : Scene (Cached Registry)) :
    FollowsAt serve .cached Eq (Locator.keep id found) (Locator.keep id found) s := by
  cases found with
  | none => exact .pure rfl
  | some tablets =>
    have run := Locator.outcome_keep id tablets s
    have run' (line : Line) := Locator.outcome_keep id tablets (Swap.cached.onto s line)
    -- both sides have the same cache, so they keep the tablets alike
    cases hi : s.world.known.insert id tablets with
    | ok known =>
      have hi' (line : Line) :
          (Swap.cached.onto s line).world.known.insert id tablets = .ok known := hi
      simp only [hi] at run
      simp only [hi'] at run'
      exact .of_line run rfl run' (.ok rfl)
    | error f =>
      have hi' (line : Line) :
          (Swap.cached.onto s line).world.known.insert id tablets = .error f := hi
      simp only [hi] at run
      simp only [hi'] at run'
      exact .of_line run rfl run' (.error f)

namespace Catalog.Follows

variable {c : Catalog Line} {serve : Service} {id : TableId} {s : Scene (Cached Registry)}
  (h : c.Follows serve s.world.backing)
include h

/-- Asking for the tablets of a table: one that does not exist has none, on either side. -/
theorem current? (hid : id.IsSegment) (notes : List Note) :
    FollowsAt serve .scene Eq (Locator.current? Registry.catalog id) (Locator.current? c id)
      ⟨s.world.backing, notes⟩ := by
  unfold Locator.current?
  refine FollowsAt.tryCatch ?_ fun f s' _ => ?_
  · refine (h.tablets hid notes).bind ?_
    rintro tablets _ s' rfl -
    exact .pure rfl
  · split
    · exact .pure rfl
    · exact .throw f

/-- The tablets that the locator works with: those it keeps, if it keeps any, or else those that it
asks for and keeps from then on. -/
theorem locatorTablets (hid : id.IsSegment) :
    FollowsAt serve .cached Eq (Locator.tablets Registry.catalog id) (Locator.tablets c id) s := by
  have run := Locator.outcome_tablets Registry.catalog hid.isScalar s
  have run' (line : Line) := Locator.outcome_tablets c hid.isScalar (Swap.cached.onto s line)
  -- both sides have kept the same, so either both of them ask or none does
  cases hf : s.world.known.find? id with
  | some found =>
    have hf' (line : Line) : (Swap.cached.onto s line).world.known.find? id = some found := hf
    simp only [hf] at run
    simp only [hf'] at run'
    exact .of_line run rfl run' (.ok rfl)
  | none =>
    have hf' (line : Line) : (Swap.cached.onto s line).world.known.find? id = none := hf
    simp only [hf] at run
    simp only [hf'] at run'
    refine .congr run run' ((h.current? hid s.notes).behind.bind ?_)
    rintro found _ s' rfl -
    exact .keep id found s'

/-- Ranges are resolved alike, since that is done on the tablets, which are the same on both
sides. -/
theorem resolve (hid : id.IsSegment) (ranges : List KeyRange) :
    FollowsAt serve .cached Eq ((Locator.cached Registry.catalog).resolve id ranges)
      ((Locator.cached c).resolve id ranges) s := by
  refine (h.locatorTablets hid).bind ?_
  rintro tablets _ s₁ rfl -
  refine (FollowsAt.ofResult _ s₁).bind ?_
  rintro located _ s₂ rfl -
  by_cases incomplete : (!located.isComplete) = true
  · rw [if_pos incomplete, if_pos incomplete]
    exact (FollowsAt.note _ s₂).bind fun _ _ _ _ _ => .pure rfl
  · rw [if_neg incomplete, if_neg incomplete]
    exact .pure rfl

omit h in
/-- Forgetting the tablets of a table asks nothing, and does the same to both caches. -/
theorem invalidate (hid : id.IsSegment) :
    FollowsAt serve .cached Eq ((Locator.cached Registry.catalog).invalidate id)
      ((Locator.cached c).invalidate id) s := by
  have run {ω : Type} (c : Catalog ω) (t : Scene (Cached ω)) :
      outcome ((Locator.cached c).invalidate id) t =
        (.ok (), ⟨⟨t.world.backing, t.world.known.erase id⟩, t.notes⟩) := by
    simp only [Locator.cached, hid.isScalar]
    rfl
  exact .of_line (run _ s) rfl (fun line => run c (Swap.cached.onto s line)) (.ok rfl)

/-- Offline tables are binned alike: both sides ask for the state first, and for the tablets only if
the table is offline. -/
theorem bin (hid : id.IsSegment) (ranges : List KeyRange) (notes : List Note) :
    FollowsAt serve .scene Eq (Offline.bin Registry.catalog id ranges) (Offline.bin c id ranges)
      ⟨s.world.backing, notes⟩ := by
  refine (h.tableState hid notes).bind ?_
  rintro state _ s₁ rfl asked
  obtain rfl : s₁ = ⟨s.world.backing, notes⟩ := by
    have same := asked.symm.trans (Effect.outcome_ask _ _)
    exact congrArg Prod.snd same
  -- a table that is not offline is refused before its tablets are asked for
  by_cases online : state ≠ .offline
  · rw [if_pos online, if_pos online]
    refine .bind (R := fun _ _ => False) (.throw _) fun _ _ _ never => never.elim
  · rw [if_neg online, if_neg online]
    refine (h.tablets hid notes).bind ?_
    rintro tablets _ s₂ rfl -
    cases Offline.ofTablets tablets ranges with
    | ok binning => exact .pure rfl
    | error setback =>
      cases setback with
      | failed why => exact .throw why
      | obstacle why =>
        have note : FollowsAt serve .scene Eq (Effect.note (Offline.note id why))
            (Effect.note (Offline.note id why)) s₂ :=
          .of_line rfl rfl (fun _ => rfl) (.ok rfl)
        exact note.bind fun _ _ _ _ _ => .pure rfl

end Catalog.Follows

end ScanPlanner
