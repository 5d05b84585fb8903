import ScanPlanner.Proofs.Naming

/-!
# Walking nodes with a host book at hand

Whatever a lookup answers, and also if it answers differently each time, a host that has been
looked up is remembered until other hosts are. So resolving a node again right after it was
resolved changes nothing and names the same hosts (`Splitting.Settles`), and it makes no difference
whether its hosts are resolved once for the node or once for each bin of the node
(`Naming.gives_mapM`).

`Naming.Gives` says what something with a host book at hand comes to. All ways to walk the same
nodes resolve them to the same hosts (`Splitting.exists_hosted`).
-/

namespace ScanPlanner

variable {ω α β : Type}

/-- Every lookup answers with a name, which is never a null. -/
def Collaborators.Answers (c : Collaborators ω) : Prop :=
  ∀ host scene, ∃ name scene', outcome (c.canonical host) scene = (.ok name, scene') ∧ name ≠ .null

/-! ## Remembered hosts -/

namespace Lru

variable {κ ν : Type} [BEq κ] [ReflBEq κ]

/-- The entry in front is found, and stays there. -/
theorem find?_of_front {c : Lru κ ν} {key : κ} {v : ν} {rest : List (κ × ν)}
    (h : c.entries = (key, v) :: rest) : c.find? key = some (v, c) := by
  obtain ⟨capacity, entries⟩ := c
  obtain rfl : entries = (key, v) :: rest := h
  unfold find?
  simp [Ledger.get?, Ledger.erase]

/-- What was found stands in front, so it is found again, and that changes nothing. -/
theorem find?_again {c c' : Lru κ ν} {key : κ} {v : ν} (h : c.find? key = some (v, c')) :
    c'.find? key = some (v, c') ∧ c'.capacity = c.capacity := by
  obtain ⟨w, -, e⟩ := Option.map_eq_some_iff.mp h
  cases e
  exact ⟨find?_of_front rfl, rfl⟩

/-- What was put into a host book with room is found there. -/
theorem find?_of_insert {c : Lru κ ν} (room : 1 ≤ c.capacity) (key : κ) (v : ν) :
    ∃ c', c.insert key v = .ok c' ∧ c'.find? key = some (v, c') ∧ c'.capacity = c.capacity := by
  have not_full : ¬ c.capacity < 1 := by omega
  unfold insert
  rw [if_neg not_full]
  exact ⟨_, rfl, find?_of_front rfl, rfl⟩

end Lru

/-! ## What comes of it -/

namespace Naming

/-- From the host book and session `t` on, the result is `r`, and if it is a value, the host book
and the session are `t'` then. -/
def Gives (x : Naming ω α) (t : HostBook × Session ω) (r : Result α) (t' : HostBook × Session ω) :
    Prop :=
  match r with
  | .ok a => outcome (x.run t.1) t.2 = (.ok (a, t'.1), t'.2)
  | .error f => (outcome (x.run t.1) t.2).1 = .error f

variable {t t' t'' : HostBook × Session ω}

/-- The result is read off the run. -/
theorem Gives.result {x : Naming ω α} {r : Result α} (h : Gives x t r t') :
    (outcome (x.run t.1) t.2).1.map Prod.fst = r := by
  cases r with
  | ok a =>
    have h : outcome (x.run t.1) t.2 = _ := h
    rw [h]
    rfl
  | error f =>
    have h : (outcome (x.run t.1) t.2).1 = _ := h
    rw [h]
    rfl

theorem gives_pure (a : α) (t : HostBook × Session ω) : Gives (pure a : Naming ω α) t (.ok a) t :=
  rfl

theorem gives_get (t : HostBook × Session ω) : Gives (get : Naming ω HostBook) t (.ok t.1) t := rfl

theorem gives_set (book : HostBook) (t : HostBook × Session ω) :
    Gives (set book : Naming ω PUnit) t (.ok ⟨⟩) (book, t.2) := rfl

/-- A result that is known changes nothing. -/
theorem gives_ofResult (r : Result α) (t : HostBook × Session ω) :
    Gives (Splitting.ofResult r : Naming ω α) t r t := by
  cases r with
  | ok a => rfl
  | error f => rfl

/-- One part after the other: the second one starts where a value of the first part has led, and a
failure of the first part is the result. -/
theorem gives_bind {x : Naming ω α} {g : α → Naming ω β} {r : Result α} {q : α → Result β}
    (hx : Gives x t r t') (hg : ∀ a, r = .ok a → Gives (g a) t' (q a) t'') :
    Gives (x >>= g) t (r >>= q) t'' := by
  have run : ((x >>= g : Naming ω β).run t.1 : Step ω (β × HostBook)) =
      x.run t.1 >>= fun p => (g p.1).run p.2 := rfl
  -- after a failure it does not matter what would have come next
  cases r with
  | error f =>
    have hx : (outcome (x.run t.1) t.2).1 = .error f := hx
    show (outcome ((x >>= g : Naming ω β).run t.1) t.2).1 = .error f
    rw [run, outcome_bind]
    rcases hrun : outcome (x.run t.1) t.2 with ⟨r, s⟩
    rw [hrun] at hx
    dsimp only at hx
    rw [hx]
  | ok a =>
    have hx : outcome (x.run t.1) t.2 = (.ok (a, t'.1), t'.2) := hx
    have same : outcome ((x >>= g : Naming ω β).run t.1) t.2 = outcome ((g a).run t'.1) t'.2 := by
      rw [run, outcome_bind, hx]
    have next := hg a rfl
    rw [Result.bind_ok]
    unfold Gives at next ⊢
    rw [same]
    exact next

/-- After a value that is known, the result is that of the second part. -/
theorem gives_next {x : Naming ω α} {g : α → Naming ω β} {a : α} {r : Result β}
    (hx : Gives x t (.ok a) t') (hg : Gives (g a) t' r t'') : Gives (x >>= g) t r t'' := by
  refine gives_bind (q := fun _ => r) hx fun b e => ?_
  cases e
  exact hg

/-- What is made of a value without asking anything is made of the result. -/
theorem gives_map {x : Naming ω α} {r : Result α} (hx : Gives x t r t') (h : α → β) :
    Gives (x >>= fun a => pure (h a)) t (r.map h) t' := by
  cases r with
  | ok a => exact gives_next hx (gives_pure (h a) t')
  | error f => exact gives_bind (q := fun a => .ok (h a)) hx fun a _ => gives_pure (h a) t'

/-- A step leads to another session and leaves the host book as it is. -/
theorem gives_lift {x : Step ω α} {r : Result α} {s' : Session ω} (h : outcome x t.2 = (r, s')) :
    Gives (x : Naming ω α) t r (t.1, s') := by
  have run : ((x : Naming ω α).run t.1 : Step ω (α × HostBook)) =
      x >>= fun a => pure (a, t.1) := rfl
  cases r with
  | ok a =>
    show outcome ((x : Naming ω α).run t.1) t.2 = _
    rw [run, outcome_bind, h]
    rfl
  | error f =>
    show (outcome ((x : Naming ω α).run t.1) t.2).1 = _
    rw [run, outcome_bind, h]

/-- Something done for each of some values, of which each leaves host book and session as they are
once one has brought them there. -/
theorem gives_mapM {g : α → Naming ω β} {r : α → Result β} {xs : List α} (some : xs ≠ [])
    (first : ∀ x ∈ xs, Gives (g x) t (r x) t') (again : ∀ x ∈ xs, Gives (g x) t' (r x) t') :
    Gives (xs.mapM g) t (xs.mapM r) t' := by
  -- from where the first value has led, the others change nothing
  have settled : ∀ ys ⊆ xs, Gives (ys.mapM g) t' (ys.mapM r) t' := by
    intro ys
    induction ys with
    | nil =>
      intro _
      rw [List.mapM_nil, List.mapM_nil]
      exact gives_pure _ t'
    | cons y ys ih =>
      intro sub
      obtain ⟨hy, hys⟩ := List.cons_subset.mp sub
      rw [List.mapM_cons, List.mapM_cons]
      refine gives_bind (again y hy) fun b _ => ?_
      exact gives_bind (ih hys) fun bs _ => gives_pure _ t'
  cases xs with
  | nil => exact absurd rfl some
  | cons x xs =>
    rw [List.mapM_cons, List.mapM_cons]
    refine gives_bind (first x List.mem_cons_self) fun b _ => ?_
    exact gives_bind (settled xs (List.subset_cons_self x xs)) fun bs _ => gives_pure _ t'

end Naming

/-! ## Settled nodes -/

namespace HostBook

open Naming

variable {c : Collaborators ω}

/-- A lookup gives a name, and the host book has it in front from then on. There has to be room for
one host, as there always is. -/
theorem exists_lookUp (answers : c.Answers) (host : String) (t : HostBook × Session ω)
    (room : 1 ≤ t.1.capacity) :
    ∃ name t', Gives (lookUp c host) t (.ok name) t' ∧ name ≠ .null ∧
      t'.1.find? host = some (name, t'.1) ∧ t'.1.capacity = t.1.capacity := by
  obtain ⟨book, s⟩ := t
  obtain ⟨name, scene, answered, named⟩ := answers host ⟨s.world, []⟩
  obtain ⟨book', inserted, found, capacity⟩ := Lru.find?_of_insert room host name
  obtain ⟨s', run, -⟩ := outcome_lookUp c host book s
  rw [answered, Result.bind_ok, inserted] at run
  exact ⟨name, (book', s'), run, named, found, capacity⟩

/-- What resolving a node comes to once its host is told: a search of the host book, and a lookup if
nothing is found or what is found is no name. -/
theorem gives_resolve {address : String} {r : Result Json} {t t' : HostBook × Session ω}
    (host : hostOf address ≠ "")
    (h : Gives (match t.1.find? (hostOf address) with
      | some (name, book) => do
        set book
        if name = .null then lookUp c (hostOf address) else return name
      | none => lookUp c (hostOf address)) t r t') : Gives (resolve c (.text address)) t r t' := by
  unfold resolve
  refine gives_next (gives_lift (Step.outcome_ofResult (.ok (hostOf address)) _)) ?_
  rw [if_neg host]
  exact gives_next (gives_get _) h

/-- A node whose host is remembered under a name is resolved to it. -/
theorem gives_resolve_of_found {address : String} {name : Json} {book : HostBook}
    {t : HostBook × Session ω} (host : hostOf address ≠ "") (named : name ≠ .null)
    (h : t.1.find? (hostOf address) = some (name, book)) :
    Gives (resolve c (.text address)) t (.ok name) (book, t.2) := by
  refine gives_resolve host ?_
  rw [h]
  refine gives_next (gives_set _ _) ?_
  rw [if_neg named]
  exact gives_pure name _

/-- A node is resolved to a name, and right after that to the same name, which changes nothing. So
it does not matter whether it is resolved once for all bins or for each of them. -/
theorem exists_resolve (answers : c.Answers) (address : String) (t : HostBook × Session ω)
    (room : 1 ≤ t.1.capacity) :
    ∃ name t', Gives (resolve c (.text address)) t (.ok name) t' ∧
      Gives (resolve c (.text address)) t' (.ok name) t' ∧ t'.1.capacity = t.1.capacity := by
  by_cases host : hostOf address = ""
  · have unnamed : Gives (resolve c (.text address)) t (.ok (.text "")) t := by
      unfold resolve
      refine gives_next (gives_lift (Step.outcome_ofResult (.ok (hostOf address)) _)) ?_
      rw [if_pos host]
      exact gives_pure _ t
    exact ⟨.text "", t, unnamed, unnamed, rfl⟩
  · -- wherever the name comes from, it stands in front of the host book afterwards
    cases hf : t.1.find? (hostOf address) with
    | none =>
      obtain ⟨name, t', gives, named, found, capacity⟩ :=
        exists_lookUp answers (hostOf address) t room
      refine ⟨name, t', gives_resolve host ?_, gives_resolve_of_found host named found, capacity⟩
      rw [hf]
      exact gives
    | some found =>
      obtain ⟨name, book⟩ := found
      obtain ⟨again, capacity⟩ := Lru.find?_again hf
      by_cases named : name = .null
      · obtain ⟨name', t', gives, named', found, capacity'⟩ :=
          exists_lookUp answers (hostOf address) (book, t.2) (capacity ▸ room)
        refine ⟨name', t', gives_resolve host ?_, gives_resolve_of_found host named' found,
          capacity'.trans capacity⟩
        rw [hf]
        refine gives_next (gives_set _ _) ?_
        rw [if_pos named]
        exact gives
      · exact ⟨name, (book, t.2), gives_resolve_of_found host named hf,
          gives_resolve_of_found host named again, capacity⟩

end HostBook

namespace Splitting

open Naming

variable {c : Collaborators ω} {t t' : HostBook × Session ω}

/-- From `t` on, a node is resolved to hosts, and it is resolved to them again from then on, which
changes nothing. -/
structure Settles (c : Collaborators ω) (node : Address) (t : HostBook × Session ω)
    (names : List Json) (t' : HostBook × Session ω) : Prop where
  first : Gives (hosts c node) t (.ok names) t'
  again : Gives (hosts c node) t' (.ok names) t'

/-- Each node settles: resolving it gives hosts, which resolving it again does not change. -/
theorem exists_settles (answers : c.Answers) (address : String) (t : HostBook × Session ω)
    (room : 1 ≤ t.1.capacity) :
    ∃ names t', Settles c (.text address) t names t' ∧ t'.1.capacity = t.1.capacity := by
  obtain ⟨name, t', first, again, capacity⟩ := HostBook.exists_resolve answers address t room
  exact ⟨_, t', ⟨gives_next first (gives_pure _ t'), gives_next again (gives_pure _ t')⟩, capacity⟩

/-- The nodes are resolved to these hosts, whatever is done with each of them, as long as it is done
with its hosts alone. -/
def Hosted (c : Collaborators ω) (nodes : List Address) (t : HostBook × Session ω)
    (hosted : List (Address × List Json)) (t' : HostBook × Session ω) : Prop :=
  ∀ {β : Type} (g : Address → Naming ω β) (r : Address → List Json → Result β),
    (∀ node ∈ nodes, ∀ t names t', Settles c node t names t' →
      Gives (g node) t (r node names) t') →
    Gives (nodes.mapM g) t (hosted.mapM fun h => r h.1 h.2) t'

/-- Nodes can be walked in turn, each with hosts that stay the same while something is done with
it. -/
theorem exists_hosted (answers : c.Answers) {nodes : List Address}
    (texts : ∀ node ∈ nodes, ∃ address, node = .text address) (t : HostBook × Session ω)
    (room : 1 ≤ t.1.capacity) :
    ∃ hosted t', hosted.map Prod.fst = nodes ∧ Hosted c nodes t hosted t' := by
  induction nodes generalizing t with
  | nil =>
    refine ⟨[], t, rfl, fun g r _ => ?_⟩
    rw [List.mapM_nil, List.mapM_nil]
    exact gives_pure _ t
  | cons node nodes ih =>
    obtain ⟨address, rfl⟩ := texts _ List.mem_cons_self
    obtain ⟨names, t₁, settles, capacity⟩ := exists_settles answers address t room
    obtain ⟨hosted, t', same, others⟩ :=
      ih (fun node h => texts node (List.mem_cons_of_mem _ h)) t₁ (capacity ▸ room)
    -- the hosts of the first node hold while its turn lasts, and the others begin where it has led
    refine ⟨(.text address, names) :: hosted, t', by rw [List.map_cons, same], fun g r each => ?_⟩
    rw [List.mapM_cons, List.mapM_cons]
    refine gives_bind (each _ List.mem_cons_self t names t₁ settles) fun b _ => ?_
    refine gives_bind (others g r ?_) fun bs _ => gives_pure _ t'
    exact fun node h => each node (List.mem_cons_of_mem _ h)

end Splitting

end ScanPlanner
