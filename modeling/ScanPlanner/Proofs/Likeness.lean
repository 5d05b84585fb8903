import ScanPlanner.Proofs.Congruence

/-!
# Steps in two worlds

Two sets of collaborators are compared by a relation of the steps that are made with them. If the
relation holds of the least steps, is kept by putting steps together (`Likeness`), and holds of the
answers of the collaborators (`Partners`), then it holds of all that is put together of these:
attempts to locate ranges (`Partners.attemptOnline`, `Partners.attemptOffline`), and the splits made
of a binning (`Partners.make`). What the relation says of the two worlds does not matter here.
-/

namespace ScanPlanner

variable {ω ω' α β γ δ : Type}

/-- The results are the same failure, or values that belong together. Failures are compared as they
are, with their messages and causes. -/
inductive Agree (R : α → β → Prop) : Result α → Result β → Prop
  | ok {a : α} {b : β} (h : R a b) : Agree R (.ok a) (.ok b)
  | error (f : Failure) : Agree R (.error f) (.error f)

theorem Agree.eq {r r' : Result α} (h : Agree Eq r r') : r' = r := by
  cases h with
  | ok h => rw [h]
  | error f => rfl

/-- Agreement may be made weaker. -/
theorem Agree.imp {R R' : α → β → Prop} {r : Result α} {r' : Result β} (h : Agree R r r')
    (hR : ∀ a b, R a b → R' a b) : Agree R' r r' := by
  cases h with
  | ok h => exact .ok (hR _ _ h)
  | error f => exact .error f

/-- The level of the log. -/
def Step.level : Step ω Int := do return (← get).level

/-- A relation of steps in two worlds that is kept by putting steps together. `Like R x y` relates
steps with values that belong together. -/
structure Likeness (ω ω' : Type) where
  Like : {α β : Type} → (α → β → Prop) → Step ω α → Step ω' β → Prop
  pure : ∀ {α β : Type} {R : α → β → Prop} {a : α} {b : β}, R a b → Like R (pure a) (pure b)
  throw : ∀ {α β : Type} {R : α → β → Prop} (f : Failure), Like R (throw f) (throw f)
  bind : ∀ {α β γ δ : Type} {R : α → β → Prop} {Q : γ → δ → Prop} {x : Step ω α} {y : Step ω' β}
    {g : α → Step ω γ} {h : β → Step ω' δ}, Like R x y → (∀ a b, R a b → Like Q (g a) (h b)) →
      Like Q (x >>= g) (y >>= h)
  record : ∀ e : Event, Like Eq (Step.record e) (Step.record e)
  note : ∀ (severity : Severity) (source : Source) (text : String),
    Like Eq (Step.note severity source text) (Step.note severity source text)
  draw : ∀ (c : Collaborators ω) (c' : Collaborators ω') (bound : Nat), c'.numbers = c.numbers →
    Like Eq (Step.draw c bound) (Step.draw c' bound)
  level : Like Eq (Step.level : Step ω Int) (Step.level : Step ω' Int)

namespace Likeness

variable (L : Likeness ω ω') {Q : γ → δ → Prop}

theorem bind_eq {x : Step ω α} {y : Step ω' α} {g : α → Step ω γ} {h : α → Step ω' δ}
    (hx : L.Like Eq x y) (hg : ∀ a, L.Like Q (g a) (h a)) : L.Like Q (x >>= g) (y >>= h) :=
  L.bind hx fun a _ e => e ▸ hg a

/-- What would come after a failure does not matter. -/
theorem throw_bind (f : Failure) {g : α → Step ω γ} {h : β → Step ω' δ} :
    L.Like Q (MonadExcept.throw f >>= g) (MonadExcept.throw f >>= h) :=
  L.bind (R := fun _ _ => False) (L.throw f) fun _ _ never => never.elim

/-- A result that is known already is like itself on both sides. -/
theorem ofResult (r : Result α) :
    L.Like Eq (Step.ofResult r : Step ω α) (Step.ofResult r : Step ω' α) := by
  cases r with
  | ok a => exact L.pure rfl
  | error f => exact L.throw f

/-- Steps with the same values that are alike. -/
def congruence : Congruence (Step ω) (Step ω') where
  Rel := L.Like Eq
  pure _ := L.pure rfl
  throw f := L.throw f
  bind := L.bind_eq

end Likeness

/-- Collaborators whose answers are alike, as far as tables with ids of some sort are concerned.
Plans made with the one and the other are alike then. -/
structure Partners (L : Likeness ω ω') (Id : TableId → Prop) (c : Collaborators ω)
    (c' : Collaborators ω') : Prop where
  numbers : c'.numbers = c.numbers
  canonical : ∀ host, L.Like Eq (Step.perform (c.canonical host)) (Step.perform (c'.canonical host))
  resolve : ∀ {id}, Id id → ∀ ranges, L.Like Eq
    (Step.perform (c.backend.locator.resolve id ranges))
    (Step.perform (c'.backend.locator.resolve id ranges))
  invalidate : ∀ {id}, Id id → L.Like Eq
    (Step.perform (c.backend.locator.invalidate id))
    (Step.perform (c'.backend.locator.invalidate id))
  tableExists : ∀ {id}, Id id → L.Like Eq
    (Step.perform (c.backend.locator.tableExists id))
    (Step.perform (c'.backend.locator.tableExists id))
  tableState : ∀ {id}, Id id → L.Like Eq
    (Step.perform (c.backend.locator.tableState id))
    (Step.perform (c'.backend.locator.tableState id))
  binOffline : ∀ {id}, Id id → ∀ ranges, L.Like Eq
    (Step.perform (c.backend.binOffline id ranges))
    (Step.perform (c'.backend.binOffline id ranges))

variable {L : Likeness ω ω'} {Id : TableId → Prop} {c : Collaborators ω} {c' : Collaborators ω'}

/-! ## Attempts -/

namespace Partners

theorem ask {R : α → β → Prop} {effect : Effect ω α} {effect' : Effect ω' β} (q : Question)
    (about : TableId) (h : L.Like R (Step.perform effect) (Step.perform effect')) :
    L.Like R (Step.ask q about effect) (Step.ask q about effect') :=
  L.bind_eq (L.record _) fun _ => h

/-- To choose the length of a pause is alike on both sides, since both draw the same numbers. A
pause of fixed length draws none. -/
theorem delay (p : Partners L Id c c') (b : Backoff) :
    L.Like Eq (b.delay c) (b.delay c') := by
  unfold Backoff.delay
  by_cases jitter : b.jitter > 0
  · rw [if_pos jitter, if_pos jitter]
    exact L.bind_eq (L.draw c c' b.jitter p.numbers) fun _ => L.pure rfl
  · rw [if_neg jitter, if_neg jitter]
    exact L.pure rfl

/-- So are online attempts, if the collaborators answer their questions alike. -/
theorem attemptOnline (p : Partners L Id c c') {id : TableId} (hid : Id id)
    (ranges : List KeyRange) :
    L.Like Eq (Locating.attemptOnline c id ranges) (Locating.attemptOnline c' id ranges) :=
  L.congruence.attemptOnline L.note id ranges (ask _ _ (p.invalidate hid))
    (ask _ _ (p.resolve hid ranges)) (ask _ _ (p.tableExists hid)) (ask _ _ (p.tableState hid))

theorem attemptOffline (p : Partners L Id c c') {id : TableId} (hid : Id id)
    (ranges : List KeyRange) :
    L.Like Eq (Locating.attemptOffline c id ranges) (Locating.attemptOffline c' id ranges) :=
  L.congruence.attemptOffline L.note id ranges (ask _ _ (p.binOffline hid ranges))

/-! ## Splits -/

/-- Of the session a lookup reads no more than the level. -/
theorem lookUp (p : Partners L Id c c') (host : String) :
    L.congruence.pointwise.Rel (HostBook.lookUp c host) (HostBook.lookUp c' host) := by
  intro book
  show L.Like Eq (Step.level >>= fun level => (Naming.lookUpAt c host level).run book)
    (Step.level >>= fun level => (Naming.lookUpAt c' host level).run book)
  refine L.bind_eq L.level fun level => ?_
  exact L.congruence.pointwise_lookUpAt L.note (p.canonical host) (L.record _) book

theorem make (p : Partners L Id c c') (f : SplitFrame) (b : Binning) (scan : TableScan)
    (size : Int) :
    L.Like Eq (Splitting.make c f b scan size) (Splitting.make c' f b scan size) :=
  L.congruence.make L.note p.lookUp f b scan size

end Partners

end ScanPlanner
