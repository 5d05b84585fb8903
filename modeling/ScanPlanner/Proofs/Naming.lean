import ScanPlanner.Planning.Splitting
import ScanPlanner.Proofs.Attempt

/-!
# Naming hosts

What is done with a host book at hand, as a relation between the state before and the value
(`Naming.Ensures`): an invariant of the host book and the session is kept, and the value is right.
If lookups are told by a function, the host book only ever holds what that function tells
(`HostBook.Faithful`), so the hosts of a node are those of the function, remembered or not
(`Splitting.ensures_hosts`).
-/

namespace ScanPlanner

variable {ω α β : Type}

/-! ## Invariants and values -/

namespace Naming

variable {I : HostBook → Session ω → Prop}

/-- If `x` ends with a value, the value has the property, and the invariant is kept. Nothing is said
of runs that fail. -/
def Ensures (I : HostBook → Session ω → Prop) (x : Naming ω α) (Q : α → Prop) : Prop :=
  ∀ book s a book' s', I book s → outcome (x.run book) s = (.ok (a, book'), s') →
    Q a ∧ I book' s'

theorem ensures_pure {Q : α → Prop} {a : α} (h : Q a) : Ensures I (pure a : Naming ω α) Q := by
  intro book s a' book' s' hI run
  cases run
  exact ⟨h, hI⟩

/-- What the first part ensures is what the second one can start from. -/
theorem ensures_bind {x : Naming ω α} {f : α → Naming ω β} {P : α → Prop} {Q : β → Prop}
    (hx : Ensures I x P) (hf : ∀ a, P a → Ensures I (f a) Q) : Ensures I (x >>= f) Q := by
  intro book s b book' s' hI run
  rw [StateT.run_bind] at run
  obtain ⟨⟨a, book₁⟩, s₁, run₁, run₂⟩ := outcome_bind_ok.mp run
  obtain ⟨hP, hI₁⟩ := hx _ _ _ _ _ hI run₁
  exact hf a hP _ _ _ _ _ hI₁ run₂

/-- A value with a property has every property that this one implies. -/
theorem Ensures.imp {x : Naming ω α} {P Q : α → Prop} (hx : Ensures I x P)
    (h : ∀ a, P a → Q a) : Ensures I x Q := by
  intro book s a book' s' hI run
  obtain ⟨hP, hI'⟩ := hx _ _ _ _ _ hI run
  exact ⟨h a hP, hI'⟩

/-- A step that is done with a host book at hand leaves the host book as it is. -/
theorem outcome_lift (x : Step ω α) (book : HostBook) (s : Session ω) :
    outcome ((x : Naming ω α).run book) s = ((outcome x s).1.map (·, book), (outcome x s).2) := by
  have lifted : ((x : Naming ω α).run book : Step ω (α × HostBook)) =
      x >>= fun a => pure (a, book) := rfl
  rw [lifted, outcome_bind_pure]

/-- If such a step ends with a value, the host book is the same one, and the step as such ended with
that value. -/
theorem outcome_lift_ok {x : Step ω α} {book book' : HostBook} {s s' : Session ω} {a : α}
    (h : outcome ((x : Naming ω α).run book) s = (.ok (a, book'), s')) :
    book' = book ∧ outcome x s = (.ok a, s') := by
  rw [outcome_lift, Prod.mk.injEq] at h
  obtain ⟨a', ran, e⟩ := Result.map_eq_ok.mp h.1
  cases e
  exact ⟨rfl, Prod.ext ran h.2⟩

theorem outcome_session (book : HostBook) (s : Session ω) :
    outcome ((getThe (Session ω) : Naming ω (Session ω)).run book) s = (.ok (s, book), s) := rfl

theorem outcome_book (book : HostBook) (s : Session ω) :
    outcome ((get : Naming ω HostBook).run book) s = (.ok (book, book), s) := rfl

theorem outcome_setBook (book book' : HostBook) (s : Session ω) :
    outcome ((set book' : Naming ω PUnit).run book) s = (.ok (⟨⟩, book'), s) := rfl

/-- A result that is known ends with its value, if it has one. -/
theorem ensures_ofResult (r : Result α) :
    Ensures I (Splitting.ofResult r : Naming ω α) fun a => r = .ok a := by
  intro book s a book' s' hI run
  obtain ⟨rfl, run₁⟩ := outcome_lift_ok run
  rw [Step.outcome_ofResult, Prod.mk.injEq] at run₁
  obtain ⟨hr, rfl⟩ := run₁
  exact ⟨hr, hI⟩

/-- If each of some items ensures a property of the item and its value, all of them in turn ensure
it of the items and their values in order. -/
theorem ensures_mapM {f : α → Naming ω β} {Q : α → β → Prop} {xs : List α}
    (h : ∀ x ∈ xs, Ensures I (f x) (Q x)) :
    Ensures I (xs.mapM f) fun ys => List.Forall₂ Q xs ys := by
  induction xs with
  | nil =>
    rw [List.mapM_nil]
    exact ensures_pure .nil
  | cons x xs ih =>
    obtain ⟨first, rest⟩ := List.forall_mem_cons.mp h
    rw [List.mapM_cons]
    refine ensures_bind first fun y hy => ?_
    refine ensures_bind (ih rest) fun ys hys => ?_
    exact ensures_pure (.cons hy hys)

end Naming

/-! ## Host books -/

namespace HostBook

/-- The host book holds what the lookup tells. A lookup is a function here: a host has one name as
long as planning goes on. -/
def Faithful (lookup : String → Result Json) (book : HostBook) : Prop :=
  ∀ e ∈ book.entries, lookup e.1 = .ok e.2

theorem faithful_empty (lookup : String → Result Json) (size : Int) :
    Faithful lookup (Lru.empty size) := by
  intro e he
  cases he

variable {lookup : String → Result Json} {book book' : HostBook} {host : String} {name : Json}

/-- What is found is what the lookup tells, and finding it adds no entry. Null names are not found,
so hosts without a name are looked up each time. -/
theorem Faithful.find? (h : Faithful lookup book) (hf : book.find? host = some (name, book')) :
    lookup host = .ok name ∧ Faithful lookup book' := by
  obtain ⟨⟨k, hk, hmem⟩, entries⟩ := Lru.mem_of_find? hf
  obtain rfl := eq_of_beq hk
  have found := h _ hmem
  refine ⟨found, fun e he => ?_⟩
  rcases entries e he with rfl | he
  · exact found
  · exact h e he

/-- A name that the lookup tells may be taken in, whatever is dropped for it. -/
theorem Faithful.insert (h : Faithful lookup book) (hname : lookup host = .ok name)
    (hi : book.insert host name = .ok book') : Faithful lookup book' := by
  intro e he
  rcases Lru.mem_of_insert hi e he with rfl | he
  · exact hname
  · exact h e he

end HostBook

/-- The name of a host as a lookup tells it. An empty host is not looked up. -/
def hostName (lookup : String → Result Json) (host : String) : Result Json :=
  if host = "" then .ok (.text "") else lookup host

/-- The names of the host of an address as a lookup tells them: one, or none if the address has no
host or the lookup gives nothing. -/
def hostNames (lookup : String → Result Json) (address : Address) : Result (List Json) := do
  let name ← hostName lookup (← hostOfAddress address)
  return if name.isPresent then [name] else []

/-- An address whose hosts are known is a text. -/
theorem exists_text_of_hostNames {lookup : String → Result Json} {address : Address}
    {names : List Json} (h : hostNames lookup address = .ok names) : ∃ s, address = .text s := by
  obtain ⟨host, hhost, -⟩ := Result.bind_eq_ok.mp h
  unfold hostOfAddress at hhost
  split at hhost
  · exact ⟨_, rfl⟩
  · cases hhost

/-- The host book is faithful, and the world is the given one. -/
def HostBook.Kept (lookup : String → Result Json) (w : ω) (book : HostBook) (s : Session ω) :
    Prop :=
  book.Faithful lookup ∧ s.world = w

namespace HostBook

variable {lookup : String → Result Json} {w : ω} {c : Collaborators ω}

/-- What a lookup comes to: the collaborator is asked for a name, and the host book takes it in.
That it was looked up is recorded in any case, also if the lookup fails. -/
theorem outcome_lookUp (c : Collaborators ω) (host : String) (book : HostBook) (s : Session ω) :
    ∃ s', outcome ((lookUp c host).run book) s =
        ((do
          let name ← (outcome (c.canonical host) ⟨s.world, []⟩).1
          return (name, ← Lru.insert book host name)), s') ∧
      s'.world = (outcome (c.canonical host) ⟨s.world, []⟩).2.world ∧
      (s'.level = s.level ∧ s'.drawn = s.drawn) ∧
      s'.happened = s.happened ++ [.lookedUp host s.level] := by
  obtain ⟨s₁, run, world, level, drawn, happened⟩ :=
    Step.exists_outcome_perform (c.canonical host) (s.record (.lookedUp host s.level))
  rw [Session.happened_record s rfl] at happened
  have same : (s.record (.lookedUp host s.level)).world = s.world := rfl
  rw [same] at run world
  unfold lookUp
  simp only [StateT.run_bind, outcome_bind, Naming.outcome_session, Naming.outcome_lift,
    Step.outcome_record, Except.map, run]
  cases (outcome (c.canonical host) ⟨s.world, []⟩).1 with
  | error f => exact ⟨s₁, rfl, world, ⟨level, drawn⟩, happened⟩
  | ok name =>
    -- the note on the name is no event that happens, so the lookup is the only one
    have noted (notes : List Note) : (s₁.log notes).happened = _ :=
      (Session.happened_log s₁ notes).trans happened
    simp only [Step.outcome_note, Naming.outcome_book, Step.outcome_ofResult, Result.bind_ok]
    cases book.insert host name with
    | error f => exact ⟨_, rfl, world, ⟨level, drawn⟩, noted _⟩
    | ok book' => exact ⟨_, rfl, world, ⟨level, drawn⟩, noted _⟩

/-- A lookup gives what the function tells, and the host book that takes it in stays faithful. So
later finds give that as well. -/
theorem ensures_lookUp (hc : ∀ host, c.canonical host = Effect.ofResult (lookup host))
    (host : String) :
    Naming.Ensures (Kept lookup w) (lookUp c host) fun name => lookup host = .ok name := by
  rintro book s a book' s' ⟨faithful, world⟩ run
  obtain ⟨s₁, looked, world₁, -⟩ := outcome_lookUp c host book s
  rw [hc, Effect.outcome_ofResult] at looked world₁
  rw [looked, Prod.mk.injEq] at run
  obtain ⟨named, rfl⟩ := run
  obtain ⟨name, hname, named⟩ := Result.bind_eq_ok.mp named
  obtain ⟨book₁, hinsert, named⟩ := Result.bind_eq_ok.mp named
  cases named
  exact ⟨hname, faithful.insert hname hinsert, world₁.trans world⟩

/-- An address is resolved to the name of its host as the function tells it, whether the host book
holds it or not. The world stays as it is. -/
theorem ensures_resolve (hc : ∀ host, c.canonical host = Effect.ofResult (lookup host))
    (address : Address) :
    Naming.Ensures (Kept lookup w) (resolve c address) fun name =>
      ∃ host, hostOfAddress address = .ok host ∧
        hostName lookup host = .ok name := by
  unfold resolve
  refine Naming.ensures_bind (Naming.ensures_ofResult (hostOfAddress address)) fun host hhost => ?_
  by_cases none : host = ""
  · rw [if_pos none]
    exact Naming.ensures_pure ⟨host, hhost, by rw [hostName, if_pos none]⟩
  · have looked := (ensures_lookUp (w := w) hc host).imp
      (Q := fun name => ∃ host, hostOfAddress address = .ok host ∧
        hostName lookup host = .ok name)
      fun name hname => ⟨host, hhost, by rwa [hostName, if_neg none]⟩
    rw [if_neg none]
    rintro book s a book' s' ⟨faithful, world⟩ run
    rw [StateT.run_bind] at run
    obtain ⟨⟨_, book₁⟩, s₁, run₁, run⟩ := outcome_bind_ok.mp run
    cases run₁
    cases hf : book.find? host with
    | none =>
      simp only [hf] at run
      exact looked _ _ _ _ _ ⟨faithful, world⟩ run
    | some found =>
      obtain ⟨name, book₂⟩ := found
      obtain ⟨hname, faithful₂⟩ := faithful.find? hf
      simp only [hf, StateT.run_bind] at run
      obtain ⟨⟨_, book₃⟩, s₃, run₃, run⟩ := outcome_bind_ok.mp run
      cases run₃
      by_cases null : name = .null
      · -- a name that is null is not remembered: the host is looked up again
        rw [if_pos null] at run
        exact looked _ _ _ _ _ ⟨faithful₂, world⟩ run
      · rw [if_neg null] at run
        cases run
        exact ⟨⟨host, hhost, by rwa [hostName, if_neg none]⟩, faithful₂, world⟩

end HostBook

/-- The hosts of a node are those that the lookup tells: one, or none if its address has no host or
the lookup gives nothing. -/
theorem Splitting.ensures_hosts {lookup : String → Result Json} {w : ω} {c : Collaborators ω}
    (hc : ∀ host, c.canonical host = Effect.ofResult (lookup host)) (node : Address) :
    Naming.Ensures (HostBook.Kept lookup w) (hosts c node) fun names =>
      hostNames lookup node = .ok names := by
  unfold hosts
  refine Naming.ensures_bind (HostBook.ensures_resolve hc node) fun name hname => ?_
  obtain ⟨host, hhost, hname⟩ := hname
  refine Naming.ensures_pure ?_
  unfold hostNames
  rw [hhost, Result.bind_ok, hname]
  rfl

end ScanPlanner
