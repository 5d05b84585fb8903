import Mathlib.Data.List.Forall2
import ScanPlanner.Backend
import ScanPlanner.Planning.Session

/-!
# Outcomes

What something with a state does when it is run: `outcome x s` is the value or the failure that `x`
ends with when it begins in `s`, and the state after it. Effects and the steps of planning are
composed in the same way, so one set of equations serves both.

A run that ends with a value is taken apart by `outcome_bind_ok`, and a list of results by
`Result.forall₂_of_mapM`.
-/

namespace ScanPlanner

/-! ## Results -/

namespace Result

variable {α β γ : Type}

@[simp] theorem pure_eq (a : α) : (pure a : Result α) = .ok a := rfl

@[simp] theorem throw_eq (f : Failure) : (throw f : Result α) = .error f := rfl

@[simp] theorem bind_ok (a : α) (g : α → Result β) : (Except.ok a : Result α) >>= g = g a := rfl

@[simp] theorem bind_error (f : Failure) (g : α → Result β) :
    (Except.error f : Result α) >>= g = .error f := rfl

/-- Inversion of a composition: it gives a value only if the first part gave one and the second
part, applied to it, gave another. Every run that ends well is taken apart with this. -/
theorem bind_eq_ok {x : Result α} {g : α → Result β} {b : β} :
    x >>= g = .ok b ↔ ∃ a, x = .ok a ∧ g a = .ok b := by
  cases x with
  | error f => simp
  | ok a => simp

/-- Inversion of a failed composition: the first part failed, or it gave a value on which the second
part fails with the same failure. -/
theorem bind_eq_error {x : Result α} {g : α → Result β} {f : Failure} :
    x >>= g = .error f ↔ x = .error f ∨ ∃ a, x = .ok a ∧ g a = .error f := by
  cases x with
  | error f => simp
  | ok a => simp

/-- What is made of a result is a value only if the result was one. -/
theorem map_eq_ok {r : Result α} {h : α → β} {b : β} :
    r.map h = .ok b ↔ ∃ a, r = .ok a ∧ h a = b := by
  cases r with
  | error f => simp [Except.map]
  | ok a => simp [Except.map]

theorem map_map (r : Result α) (g : α → β) (h : β → γ) :
    (r.map g).map h = r.map fun a => h (g a) := by
  cases r <;> rfl

/-- The results of a list, if all are values, belong to its items one by one. Properties of single
results are carried over to lists with this. -/
theorem forall₂_of_mapM {g : α → Result β} {xs : List α} {ys : List β}
    (h : xs.mapM g = .ok ys) : List.Forall₂ (fun x y => g x = .ok y) xs ys := by
  induction xs generalizing ys with
  | nil =>
    rw [List.mapM_nil] at h
    cases h
    exact .nil
  | cons x xs ih =>
    rw [List.mapM_cons] at h
    obtain ⟨y, hy, h⟩ := bind_eq_ok.mp h
    obtain ⟨ys', hys, h⟩ := bind_eq_ok.mp h
    cases h
    exact .cons hy (ih hys)

/-- An item on the right of two lists in step has its partner on the left. -/
theorem exists_of_forall₂_of_mem {R : α → β → Prop} {xs : List α} {ys : List β}
    (h : List.Forall₂ R xs ys) {y : β} (hy : y ∈ ys) : ∃ x ∈ xs, R x y := by
  induction h with
  | nil => simp at hy
  | cons head _ ih =>
    rcases List.mem_cons.mp hy with rfl | hy
    · exact ⟨_, List.mem_cons_self, head⟩
    · obtain ⟨x, hx, hR⟩ := ih hy
      exact ⟨x, List.mem_cons_of_mem _ hx, hR⟩

theorem exists_of_mapM_of_mem {g : α → Result β} {xs : List α} {ys : List β}
    (h : xs.mapM g = .ok ys) {y : β} (hy : y ∈ ys) : ∃ x ∈ xs, g x = .ok y :=
  exists_of_forall₂_of_mem (forall₂_of_mapM h) hy

/-- A list that is not read has an item that is not read, for the same reason: the first one that
fails. -/
theorem exists_of_mapM_eq_error {g : α → Result β} {xs : List α} {f : Failure}
    (h : xs.mapM g = .error f) : ∃ x ∈ xs, g x = .error f := by
  induction xs with
  | nil => cases h
  | cons x xs ih =>
    rw [List.mapM_cons] at h
    rcases bind_eq_error.mp h with head | ⟨y, -, h⟩
    · exact ⟨x, List.mem_cons_self, head⟩
    rcases bind_eq_error.mp h with tail | ⟨ys, -, h⟩
    · obtain ⟨x', hx', read⟩ := ih tail
      exact ⟨x', List.mem_cons_of_mem _ hx', read⟩
    · cases h

/-- To make something of each result is to make it of the list of results, with the same first
failure if there is one. -/
theorem mapM_map (g : α → Result β) (h : β → γ) (xs : List α) :
    xs.mapM (fun x => (g x).map h) = (xs.mapM g).map (List.map h) := by
  induction xs with
  | nil => rfl
  | cons x xs ih =>
    rw [List.mapM_cons, List.mapM_cons, ih]
    cases g x with
    | error f => rfl
    | ok y =>
      cases xs.mapM g with
      | error f => rfl
      | ok ys => rfl

/-- If every item gives a value, so does the list. -/
theorem exists_mapM {g : α → Result β} {xs : List α} (h : ∀ x ∈ xs, ∃ y, g x = .ok y) :
    ∃ ys, xs.mapM g = .ok ys := by
  induction xs with
  | nil => exact ⟨[], rfl⟩
  | cons x xs ih =>
    obtain ⟨y, hy⟩ := h x List.mem_cons_self
    obtain ⟨ys, hys⟩ := ih fun x hx => h x (List.mem_cons_of_mem _ hx)
    refine ⟨y :: ys, ?_⟩
    rw [List.mapM_cons, hy, Result.bind_ok, hys]
    rfl

/-- The same where each value has to be related to the item that stands opposite: the values are
then related one by one. -/
theorem exists_mapM_of_forall₂ {g : α → Result β} {R : β → γ → Prop} {xs : List α} {zs : List γ}
    (h : List.Forall₂ (fun x z => ∃ y, g x = .ok y ∧ R y z) xs zs) :
    ∃ ys, xs.mapM g = .ok ys ∧ List.Forall₂ R ys zs := by
  induction h with
  | nil => exact ⟨[], rfl, .nil⟩
  | cons head _ ih =>
    obtain ⟨y, hy, hR⟩ := head
    obtain ⟨ys, hys, rest⟩ := ih
    refine ⟨y :: ys, ?_, .cons hR rest⟩
    rw [List.mapM_cons, hy, Result.bind_ok, hys]
    rfl

end Result

/-! ## Runs -/

section

variable {ε σ α β : Type}

/-- How `x` ends when it begins in the state `s`: its value or failure, and the state after it. -/
def outcome (x : ExceptT ε (StateM σ) α) (s : σ) : Except ε α × σ := x.run s

@[simp] theorem outcome_pure (a : α) (s : σ) :
    outcome (pure a : ExceptT ε (StateM σ) α) s = (.ok a, s) := rfl

@[simp] theorem outcome_throw (e : ε) (s : σ) :
    outcome (throw e : ExceptT ε (StateM σ) α) s = (.error e, s) := rfl

@[simp] theorem outcome_get (s : σ) :
    outcome (get : ExceptT ε (StateM σ) σ) s = (.ok s, s) := rfl

@[simp] theorem outcome_set (s s' : σ) :
    outcome (set s' : ExceptT ε (StateM σ) Unit) s = (.ok (), s') := rfl

@[simp] theorem outcome_modify (f : σ → σ) (s : σ) :
    outcome (modify f : ExceptT ε (StateM σ) Unit) s = (.ok (), f s) := rfl

/-- The state is threaded through a composition, and a failure of the first part skips the second
one, in the state in which it failed. -/
theorem outcome_bind (x : ExceptT ε (StateM σ) α) (g : α → ExceptT ε (StateM σ) β) (s : σ) :
    outcome (x >>= g) s = match outcome x s with
      | (.ok a, s') => outcome (g a) s'
      | (.error e, s') => (.error e, s') := by
  show (match outcome x s with | (r, s') => (ExceptT.bindCont g r : StateM σ (Except ε β)) s') = _
  rcases outcome x s with ⟨_ | _, _⟩ <;> rfl

/-- A run that is known to have ended well did so with some value and in some state. -/
theorem exists_of_isOk_outcome {run : Except ε α × σ} (h : run.1.isOk = true) :
    ∃ a s', run = (.ok a, s') := by
  obtain ⟨e | a, s'⟩ := run
  · cases h
  · exact ⟨a, s', rfl⟩

/-- Something that ends with a value has done so in both of its parts. Whatever is planned is taken
apart with this, step by step. -/
theorem outcome_bind_ok {x : ExceptT ε (StateM σ) α} {g : α → ExceptT ε (StateM σ) β} {s s'' : σ}
    {b : β} :
    outcome (x >>= g) s = (.ok b, s'') ↔
      ∃ a s', outcome x s = (.ok a, s') ∧ outcome (g a) s' = (.ok b, s'') := by
  rw [outcome_bind]
  rcases outcome x s with ⟨e | a, s'⟩
  · simp
  · constructor
    · exact fun h => ⟨a, s', rfl, h⟩
    · rintro ⟨_, _, h, h'⟩
      cases h
      exact h'

/-- Something that fails has failed in its first part, or in its second one after the first part has
given a value. -/
theorem outcome_bind_error {x : ExceptT ε (StateM σ) α} {g : α → ExceptT ε (StateM σ) β} {s s'' : σ}
    {e : ε} :
    outcome (x >>= g) s = (.error e, s'') ↔ outcome x s = (.error e, s'') ∨
      ∃ a s', outcome x s = (.ok a, s') ∧ outcome (g a) s' = (.error e, s'') := by
  rw [outcome_bind]
  rcases outcome x s with ⟨e' | a, s'⟩
  · simp
  · constructor
    · exact fun h => .inr ⟨a, s', rfl, h⟩
    · rintro (h | ⟨_, _, h, h'⟩)
      · cases h
      · cases h
        exact h'

theorem outcome_bind_pure (x : ExceptT ε (StateM σ) α) (h : α → β) (s : σ) :
    outcome (x >>= fun a => pure (h a)) s = ((outcome x s).1.map h, (outcome x s).2) := by
  rw [outcome_bind]
  rcases outcome x s with ⟨e | a, s'⟩ <;> rfl

/-- A handler begins in the state in which the failure was raised: what was done until then stays
done. -/
theorem outcome_tryCatch (x : ExceptT ε (StateM σ) α) (g : ε → ExceptT ε (StateM σ) α) (s : σ) :
    outcome (tryCatch x g) s = match outcome x s with
      | (.ok a, s') => (.ok a, s')
      | (.error e, s') => outcome (g e) s' := by
  show (match outcome x s with
    | (r, s') => (match r with
      | .ok a => pure (.ok a)
      | .error e => (g e).run : StateM σ (Except ε α)) s') = _
  rcases outcome x s with ⟨_ | _, _⟩ <;> rfl

end

/-! ## Effects -/

namespace Effect

variable {ω Ω α : Type}

@[simp] theorem outcome_note (n : Note) (s : Scene ω) :
    outcome (note n) s = (.ok (), { s with notes := s.notes ++ [n] }) := rfl

@[simp] theorem outcome_world (s : Scene ω) : outcome world s = (.ok s.world, s) := rfl

@[simp] theorem outcome_setWorld (w : ω) (s : Scene ω) :
    outcome (setWorld w) s = (.ok (), { s with world := w }) := rfl

@[simp] theorem outcome_ofResult (r : Result α) (s : Scene ω) :
    outcome (ofResult r) s = (r, s) := by
  cases r <;> rfl

/-- A question is answered by the world as it is, and nothing changes. -/
@[simp] theorem outcome_ask (question : ω → Result α) (s : Scene ω) :
    outcome (ask question) s = (question s.world, s) := by
  unfold ask
  rw [outcome_bind, outcome_world]
  exact outcome_ofResult _ s

/-- An effect on a part of the world sees that part only, and only that part is replaced; its notes
are those of the whole. -/
@[simp] theorem outcome_within (part : Ω → ω) (replace : Ω → ω → Ω) (effect : Effect ω α)
    (s : Scene Ω) :
    outcome (effect.within part replace) s =
      ((outcome effect ⟨part s.world, s.notes⟩).1,
        ⟨replace s.world (outcome effect ⟨part s.world, s.notes⟩).2.world,
          (outcome effect ⟨part s.world, s.notes⟩).2.notes⟩) := rfl

end Effect

/-! ## Steps -/

namespace Step

variable {ω α : Type}

@[simp] theorem outcome_record (e : Event) (s : Session ω) :
    outcome (record e) s = (.ok (), s.record e) := rfl

@[simp] theorem outcome_note (severity : Severity) (source : Source) (text : String)
    (s : Session ω) :
    outcome (note severity source text) s = (.ok (), s.log [⟨severity, source, text⟩]) := rfl

@[simp] theorem outcome_ofResult (r : Result α) (s : Session ω) :
    outcome (ofResult r) s = (r, s) := by
  cases r <;> rfl

/-- An effect that is performed begins without notes, and what it notes is written in the log
afterwards. -/
@[simp] theorem outcome_perform (effect : Effect ω α) (s : Session ω) :
    outcome (perform effect) s =
      ((outcome effect ⟨s.world, []⟩).1,
        { s with world := (outcome effect ⟨s.world, []⟩).2.world }.log
          (outcome effect ⟨s.world, []⟩).2.notes) := rfl

/-- The question is recorded before it is put, so it is among the events even if the answer is a
failure. -/
theorem outcome_ask (q : Question) (about : TableId) (effect : Effect ω α) (s : Session ω) :
    outcome (ask q about effect) s = outcome (perform effect) (s.record (.asked q about)) := rfl

/-- A performed effect that gives a value gave it in the world of the session, and left the world
that the session now has. -/
theorem perform_ok {effect : Effect ω α} {s s' : Session ω} {a : α}
    (h : outcome (perform effect) s = (.ok a, s')) :
    ∃ scene, outcome effect ⟨s.world, []⟩ = (.ok a, scene) ∧ s'.world = scene.world := by
  rw [outcome_perform, Prod.mk.injEq] at h
  exact ⟨(outcome effect ⟨s.world, []⟩).2, Prod.ext h.1 rfl, by rw [← h.2]; rfl⟩

end Step

end ScanPlanner
