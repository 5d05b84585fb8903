import Mathlib.Data.Finset.Card
import Mathlib.Data.List.Nodup
import ScanPlanner.Proofs.Views

/-!
# Looking hosts up

A host book that has room for all hosts in question drops none of them, so none is looked up again
while it is at hand (`HostBook.Holds`, `Splitting.adds_make`). There is one host book for each
table: a job looks a host up as often as there are tables whose splits need its name
(`Planning.count_lookUps_plan`). -/

namespace ScanPlanner

variable {ω α β : Type}

/-- The host that was looked up. -/
def Event.host? : Event → Option String
  | .lookedUp host _ => some host
  | _ => none

/-- Of lookups the hosts are seen. -/
def View.lookUps : View String := ⟨Event.host?, fun _ _ => rfl, fun _ => rfl, fun _ => rfl⟩

/-- The hosts looked up so far. -/
def Session.lookUps (s : Session ω) : List String := s.seen View.lookUps

/-- If there are at most so many of them, the hosts are looked up once each. With more hosts than
there is room for, a name may be lost and its host looked up again. -/
def LooksOnce (size : Int) (made : List String) : Prop :=
  (made.toFinset.card : Int) ≤ size → made.Nodup

theorem looksOnce_nil (size : Int) : LooksOnce size [] := fun _ => List.nodup_nil

/-- Whatever a lookup answers is a name. A null is not remembered as one, and its host would be
looked up again. -/
def Collaborators.NamesHosts (c : Collaborators ω) : Prop :=
  ∀ host scene name scene', outcome (c.canonical host) scene = (.ok name, scene') → name ≠ .null

/-! ## Invariants of the host book -/

namespace Naming

/-- A value leaves the host book and the session in the relation `I`, a failure leaves the session
with the property `J`. -/
inductive Ends (I : HostBook → Session ω → Prop) (J : Session ω → Prop) :
    Result (α × HostBook) × Session ω → Prop
  | ok {a : α} {book : HostBook} {s : Session ω} (h : I book s) : Ends I J (.ok (a, book), s)
  | error (f : Failure) {s : Session ω} (h : J s) : Ends I J (.error f, s)

variable {I : HostBook → Session ω → Prop} {J : Session ω → Prop}

/-- From a host book and a session in the relation on, it ends with them in the relation, or fails
with the property of the session that belongs to it. -/
def Keeps (I : HostBook → Session ω → Prop) (J : Session ω → Prop) (x : Naming ω α) : Prop :=
  ∀ book s, I book s → Ends I J (outcome (x.run book) s)

/-- The host book and the session that the first part leaves are those that the second one finds. If
the first part fails, its session is the last one. -/
theorem Keeps.bind {x : Naming ω α} {g : α → Naming ω β} (hx : Keeps I J x)
    (hg : ∀ a, Keeps I J (g a)) : Keeps I J (x >>= g) := by
  intro book s hI
  have first := hx book s hI
  rw [StateT.run_bind, outcome_bind]
  rcases hrun : outcome (x.run book) s with ⟨f | ⟨a, book'⟩, s'⟩
  · rw [hrun] at first
    cases first with
    | error _ hJ => exact .error f hJ
  · rw [hrun] at first
    cases first with
    | ok hI' => exact hg a book' s' hI'

/-- What keeps the relation is kept by composition, if the property holds wherever the relation
does. -/
def keeping (I : HostBook → Session ω → Prop) (J : Session ω → Prop)
    (weaken : ∀ book s, I book s → J s) : Congruence (Naming ω) (Naming ω) where
  Rel x _ := Keeps I J x
  pure _ _ _ hI := .ok hI
  throw f book s hI := .error f (weaken book s hI)
  bind := Keeps.bind

end Naming

/-! ## Host books with room -/

namespace HostBook

/-- The host book holds names of just these hosts, each looked up once, and has the given size. -/
structure Holds (size : Int) (made : List String) (book : HostBook) : Prop where
  once : made.Nodup
  capacity : book.capacity = size
  keys : (Ledger.keys book.entries).Perm made
  named : ∀ e ∈ book.entries, e.2 ≠ .null

variable {size : Int} {made : List String} {book book' : HostBook} {host : String} {name : Json}

theorem holds_empty (size : Int) : Holds size [] (Lru.empty size) :=
  ⟨List.nodup_nil, rfl, .nil, fun _ he => nomatch he⟩

/-- A host that is not found was not looked up: with room for all of them, none is dropped. -/
theorem Holds.not_mem (h : Holds size made book) (hf : book.find? host = none) : host ∉ made := by
  intro mem
  exact Ledger.not_mem_keys_of_get? (Option.map_eq_none_iff.mp hf) (h.keys.mem_iff.mpr mem)

/-- What is found is a name, and finding it changes the order of the entries and nothing else. So
the host book holds the same hosts afterwards. -/
theorem Holds.find? (h : Holds size made book) (hf : book.find? host = some (name, book')) :
    name ≠ .null ∧ Holds size made book' := by
  obtain ⟨⟨k, -, mem⟩, entries⟩ := Lru.mem_of_find? hf
  have named := h.named _ mem
  obtain ⟨v, hv, e⟩ := Option.map_eq_some_iff.mp hf
  cases e
  refine ⟨named, h.once, h.capacity, ?_, fun e he => ?_⟩
  · -- the host that was found moves to the front, so the hosts are permuted
    have front : (host :: Ledger.keys (Ledger.erase book.entries host)).Perm
        (Ledger.keys book.entries) := by
      rw [Ledger.keys_erase]
      exact (List.perm_cons_erase (Ledger.mem_keys_of_get? hv)).symm
    exact front.trans h.keys
  · rcases entries e he with rfl | he
    · exact named
    · exact h.named e he

/-- With room for one host more, none is dropped. Hosts are counted without repetitions, as the host
book has one entry for each. -/
theorem Holds.insert (h : Holds size made book) (new : host ∉ made)
    (room : ((made ++ [host]).toFinset.card : Int) ≤ size) (named : name ≠ .null)
    (hi : book.insert host name = .ok book') : Holds size (made ++ [host]) book' := by
  -- the host is a new one, so the entries that stay are the old ones, and there is room for all of
  -- them
  have once : (made ++ [host]).Nodup :=
    List.nodup_append'.mpr ⟨h.once, List.nodup_singleton host,
      List.disjoint_singleton.mpr new⟩
  have absent : host ∉ Ledger.keys book.entries := fun mem => new (h.keys.mem_iff.mp mem)
  have others : Ledger.keys (Ledger.erase book.entries host) = Ledger.keys book.entries := by
    rw [Ledger.keys_erase, List.erase_of_not_mem absent]
  have fits : (Ledger.erase book.entries host).length ≤ book.capacity.toNat - 1 := by
    have length : (Ledger.erase book.entries host).length = made.length := by
      rw [← h.keys.length_eq, ← others]
      exact (List.length_map Prod.fst).symm
    have capacity := h.capacity
    rw [List.toFinset_card_of_nodup once, List.length_append, List.length_singleton] at room
    omega
  have entries := Lru.mem_of_insert hi
  unfold Lru.insert at hi
  split at hi
  · cases hi
  · cases hi
    refine ⟨once, h.capacity, ?_, fun e he => ?_⟩
    · show (host :: Ledger.keys (List.take _ (Ledger.erase book.entries host))).Perm _
      rw [List.take_of_length_le fits, others]
      exact (h.keys.cons host).trans (List.perm_append_singleton host made).symm
    · rcases entries e he with rfl | he
      · exact named
      · exact h.named e he

/-- As long as the host book has room for the hosts looked up since `before`, it holds them. It is
the invariant of the steps that share a host book. -/
def Remembers (size : Int) (before : List String) (book : HostBook) (s : Session ω) : Prop :=
  ∃ made, s.lookUps = before ++ made ∧ ((made.toFinset.card : Int) ≤ size → Holds size made book)

/-- As long as there is room for them, no host has been looked up twice since `before`. -/
def Thrifty (size : Int) (before : List String) (s : Session ω) : Prop :=
  ∃ made, s.lookUps = before ++ made ∧ LooksOnce size made

variable {before : List String}

/-- A host book that remembers was asked for no host twice. -/
theorem Remembers.thrifty {s : Session ω} (h : Remembers size before book s) :
    Thrifty size before s := by
  obtain ⟨made, seen, holds⟩ := h
  exact ⟨made, seen, fun room => (holds room).once⟩

/-- Hosts that are added never make room: there are at least as many different ones as before. -/
theorem toFinset_card_le_append (made more : List String) :
    made.toFinset.card ≤ (made ++ more).toFinset.card := by
  refine Finset.card_le_card fun host mem => ?_
  rw [List.mem_toFinset] at mem ⊢
  exact List.mem_append_left more mem

variable {c : Collaborators ω} (named : c.NamesHosts)
include named

/-- A host that the host book does not hold is looked up, and the host book holds it then. Without
room nothing is claimed of what it holds, only of what was looked up. -/
theorem ends_lookUp {s : Session ω} {made : List String} (seen : s.lookUps = before ++ made)
    (holds : (made.toFinset.card : Int) ≤ size → Holds size made book ∧ host ∉ made) :
    Naming.Ends (Remembers size before) (Thrifty size before)
      (outcome ((lookUp c host).run book) s) := by
  obtain ⟨s', run, -, -, happened⟩ := outcome_lookUp c host book s
  -- the lookup is recorded whether it succeeds or not
  have seen' : s'.lookUps = before ++ (made ++ [host]) := by
    have old : s.happened.filterMap View.lookUps.see = before ++ made :=
      (View.seen_eq s).symm.trans seen
    show s'.seen View.lookUps = _
    rw [View.seen_eq, happened, List.filterMap_append, old, List.append_assoc]
    rfl
  have before' (room : ((made ++ [host]).toFinset.card : Int) ≤ size) :
      Holds size made book ∧ host ∉ made := by
    have := toFinset_card_le_append made [host]
    exact holds (by omega)
  rw [run]
  -- without a name nothing is inserted, but the host was looked up for the first time
  have failed (f : Failure) : Naming.Ends (Remembers size before) (Thrifty size before)
      ((.error f, s') : Result (Json × HostBook) × Session ω) := by
    refine .error f ⟨_, seen', fun room => ?_⟩
    obtain ⟨held, new⟩ := before' room
    exact List.nodup_append'.mpr ⟨held.once, List.nodup_singleton host,
      List.disjoint_singleton.mpr new⟩
  rcases answer : outcome (c.canonical host) ⟨s.world, []⟩ with ⟨f | name, scene⟩
  · exact failed f
  · cases hi : book.insert host name with
    | error f =>
      simp only [Result.bind_ok, hi]
      exact failed f
    | ok book' =>
      simp only [Result.bind_ok, hi]
      refine .ok ⟨_, seen', fun room => ?_⟩
      obtain ⟨held, new⟩ := before' room
      exact held.insert new room (named _ _ _ _ answer) hi

/-- Resolving an address keeps the host book and the lookups in step: a host at hand is not looked
up, and one that is not at hand is looked up and inserted. -/
theorem keeps_resolve (address : Address) :
    Naming.Keeps (Remembers size before) (Thrifty size before) (resolve c address) := by
  let K : Congruence (Naming ω) (Naming ω) :=
    Naming.keeping (Remembers size before) (Thrifty size before) fun _ _ => Remembers.thrifty
  unfold resolve
  refine Naming.Keeps.bind (K.ofResult _) fun host => ?_
  -- an address without a host gets the empty name, and the book is not asked
  by_cases empty : host = ""
  · rw [if_pos empty]
    exact K.pure _
  · rw [if_neg empty]
    intro book s
    rintro ⟨made, seen, holds⟩
    rw [StateT.run_bind, outcome_bind, Naming.outcome_book]
    dsimp only
    cases hf : book.find? host with
    | none => exact ends_lookUp named seen fun room => ⟨holds room, (holds room).not_mem hf⟩
    | some found =>
      obtain ⟨name, book'⟩ := found
      dsimp only
      rw [StateT.run_bind, outcome_bind, Naming.outcome_setBook]
      dsimp only
      by_cases unnamed : name = .null
      · -- with room for all hosts, each is found under its name
        rw [if_pos unnamed]
        refine ends_lookUp named seen fun room => ?_
        exact absurd unnamed ((holds room).find? hf).1
      · rw [if_neg unnamed]
        exact .ok ⟨made, seen, fun room => ((holds room).find? hf).2⟩

end HostBook

/-! ## Tables -/

/-- A host is in blocks without repetitions as often as there are blocks that it is in. -/
theorem count_flatten_of_nodup {blocks : List (List String)}
    (once : ∀ block ∈ blocks, block.Nodup) (host : String) :
    blocks.flatten.count host = blocks.countP fun block => decide (host ∈ block) := by
  induction blocks with
  | nil => rfl
  | cons block blocks ih =>
    have first := (once block List.mem_cons_self).count (a := host)
    have rest := ih fun other mem => once other (List.mem_cons_of_mem _ mem)
    rw [List.flatten_cons, List.count_append, List.countP_cons, first, rest, Nat.add_comm]
    simp

/-! ## The turns of the tables -/

namespace Planning

/-- A table of a job whose turn it is: what is left of the schedule by then, and the session that
the tables before it have left. -/
structure TableTurn (ω : Type) where
  entry : TableName × TableScan
  schedule : Schedule ω
  session : Session ω

variable (c : Collaborators ω) (job : Job) (authorizations : List Json) (size : Int)

/-- The table whose turn it is, planned: with the schedule and in the session that the tables before
it left. -/
def TableTurn.run (turn : TableTurn ω) : Result (List Split × Schedule ω) × Session ω :=
  outcome (planTable c job authorizations size turn.entry.1 turn.entry.2 turn.schedule) turn.session

/-- The turns of some tables, each with the schedule and the session that the ones before it left.
After a table that fails no other has its turn. -/
def tableTurns : List (TableName × TableScan) → Schedule ω → Session ω → List (TableTurn ω)
  | [], _, _ => []
  | entry :: rest, schedule, s =>
    let turn : TableTurn ω := ⟨entry, schedule, s⟩
    turn :: match turn.run c job authorizations size with
      | (.error _, _) => []
      | (.ok (_, schedule), s) => tableTurns rest schedule s

/-- The turns of the tables of a job, while the log has the level that the job asks for. If that
level cannot be read, none of them has a turn. -/
def jobTurns (schedule : Schedule ω) (s : Session ω) : List (TableTurn ω) :=
  match job.settings.logLevel .none with
  | .error _ => []
  | .ok level =>
    tableTurns c job authorizations size job.scans schedule { s with level := level.getD s.level }

variable {c job authorizations size}

/-- The tables that have a turn are the first ones, in the order in which they were given. A table
that fails is the last one to have a turn. -/
theorem entries_tableTurns (scans : List (TableName × TableScan)) (schedule : Schedule ω)
    (s : Session ω) :
    (tableTurns c job authorizations size scans schedule s).map TableTurn.entry <+: scans := by
  induction scans generalizing schedule s with
  | nil => exact List.prefix_rfl
  | cons entry rest ih =>
    unfold tableTurns
    refine List.prefix_cons_inj entry |>.mpr ?_
    rcases TableTurn.run c job authorizations size ⟨entry, schedule, s⟩ with ⟨f | planned, s'⟩
    · exact List.nil_prefix
    · exact ih planned.2 s'

/-- The tables that have a turn are the first ones of the job. -/
theorem entries_jobTurns (schedule : Schedule ω) (s : Session ω) :
    (jobTurns c job authorizations size schedule s).map TableTurn.entry <+: job.scans := by
  unfold jobTurns
  cases job.settings.logLevel .none with
  | error f => exact List.nil_prefix
  | ok level => exact entries_tableTurns _ _ _

/-- The hosts of the block are looked up in the turn of the table, each of them once as far as there
is room for them. -/
def TableTurn.Adds (c : Collaborators ω) (job : Job) (authorizations : List Json) (size : Int)
    (turn : TableTurn ω) (block : List String) : Prop :=
  (turn.run c job authorizations size).2.lookUps = turn.session.lookUps ++ block ∧
    LooksOnce size block

end Planning

section

variable {c : Collaborators ω} (named : c.NamesHosts)
include named

/-- While splits are made, each host is looked up once, as long as there is room for all of them.
Splits begin with an empty host book. -/
theorem Splitting.adds_make (f : SplitFrame) (b : Binning) (scan : TableScan) (size : Int) :
    Step.Adds View.lookUps (LooksOnce size) (make c f b scan size) := by
  intro s
  let K : Congruence (Naming ω) (Naming ω) :=
    Naming.keeping (HostBook.Remembers size s.lookUps) (HostBook.Thrifty size s.lookUps)
      fun _ _ => HostBook.Remembers.thrifty
  -- the walk over the bins starts with no host remembered and nothing looked up
  have walk : K.Rel (splits c f b scan) (splits c f b scan) :=
    K.splits (HostBook.keeps_resolve named) f b scan
  have ends := walk (Lru.empty size) s
    ⟨[], (List.append_nil _).symm, fun _ => HostBook.holds_empty size⟩
  unfold make
  rw [outcome_bind]
  rcases hrun : outcome ((splits c f b scan).run (Lru.empty size)) s with ⟨e | ⟨ss, book⟩, s'⟩
  · rw [hrun] at ends
    cases ends with
    | error _ thrifty => exact thrifty
  · rw [hrun] at ends
    cases ends with
    | ok remembers =>
      obtain ⟨made, seen, once⟩ := remembers.thrifty
      exact ⟨made, (View.seen_log s' _).trans seen, once⟩

variable (job : Job) (authorizations : List Json) (size : Int)

/-- No host is looked up while a table is located, so the lookups of a table are those of making its
splits. -/
theorem Planning.adds_planTable (table : TableName) (scan : TableScan) (schedule : Schedule ω) :
    Step.Adds View.lookUps (LooksOnce size)
      (planTable c job authorizations size table scan schedule) := by
  have nil := looksOnce_nil size
  rw [planTable_eq]
  refine Step.adds_bind (Step.shows_ofResult _) nil fun _ => Step.Adds.forTable table ?_
  refine Step.adds_bind (Step.shows_ask _ _ _) nil fun id => ?_
  refine Step.adds_bind (Step.shows_ofResult _) nil fun ranges => ?_
  refine Step.adds_bind (Step.shows_note _ _ _) nil fun _ => ?_
  refine Step.adds_bind (Step.shows_ofResult _) nil fun pauses => ?_
  have unpaused (millis : Nat) (_ : pauses.Allows millis) (host : String)
      (seen : View.lookUps.see (.paused millis) = some host) : False := by cases seen
  refine Step.adds_bind (Step.shows_locate c unpaused id ranges scan.offline schedule) nil
    fun found => ?_
  exact (Splitting.adds_make named _ found.1 scan size).map _

/-! ## Jobs -/

/-- What is looked up for some tables in turn is one block for each turn, with nothing between the
blocks. -/
theorem Planning.lookUps_planTables (scans : List (TableName × TableScan)) (schedule : Schedule ω)
    (s : Session ω) :
    ∃ blocks : List (List String),
      (outcome (planTables c job authorizations size scans schedule) s).2.lookUps =
          s.lookUps ++ blocks.flatten ∧
        List.Forall₂ (TableTurn.Adds c job authorizations size)
          (tableTurns c job authorizations size scans schedule s) blocks := by
  -- induction on the tables, for any schedule and session that the first of them finds
  induction scans generalizing schedule s with
  | nil => exact ⟨[], (List.append_nil _).symm, .nil⟩
  | cons entry scans ih =>
    obtain ⟨block, seen, once⟩ :=
      adds_planTable named job authorizations size entry.1 entry.2 schedule s
    have first : TableTurn.Adds c job authorizations size ⟨entry, schedule, s⟩ block := ⟨seen, once⟩
    have run : TableTurn.run c job authorizations size ⟨entry, schedule, s⟩ =
        outcome (planTable c job authorizations size entry.1 entry.2 schedule) s := rfl
    unfold planTables tableTurns
    rw [outcome_bind]
    dsimp only
    rw [run]
    rcases hrun : outcome (planTable c job authorizations size entry.1 entry.2 schedule) s
      with ⟨f | ⟨ss, rest⟩, s'⟩
    · -- a table that fails has looked up what it did, and is the last one
      rw [hrun] at seen
      refine ⟨[block], ?_, .cons first .nil⟩
      rw [List.flatten_singleton]
      exact seen
    · rw [hrun] at seen
      obtain ⟨blocks, seen', others⟩ := ih rest s'
      refine ⟨block :: blocks, ?_, .cons first others⟩
      dsimp only
      rw [outcome_bind_pure, seen', List.flatten_cons, ← List.append_assoc]
      exact congrArg (· ++ blocks.flatten) seen

/-- The same for a whole job. Reading its settings and the note at its end look nothing up, and the
level of the log only says which notes are kept. -/
theorem Planning.lookUps_plan {value : Value}
    (sized : job.settings.hostBookSize .none = .ok (value, size)) (schedule : Schedule ω)
    (s : Session ω) :
    ∃ blocks : List (List String),
      (outcome (plan c job authorizations schedule) s).2.lookUps = s.lookUps ++ blocks.flatten ∧
        List.Forall₂ (TableTurn.Adds c job authorizations size)
          (jobTurns c job authorizations size schedule s) blocks := by
  unfold plan jobTurns
  by_cases none : job.scans.isEmpty = true
  · -- a job without tables is refused, and none of them has a turn
    rw [if_pos none, List.isEmpty_iff.mp none]
    refine ⟨[], (List.append_nil _).symm, ?_⟩
    cases job.settings.logLevel .none <;> exact .nil
  · rw [if_neg none]
    cases job.settings.logLevel .none with
    | error f => exact ⟨[], (List.append_nil _).symm, .nil⟩
    | ok level =>
      rw [sized]
      obtain ⟨blocks, seen, each⟩ := lookUps_planTables named job authorizations size job.scans
        schedule { s with level := level.getD s.level }
      refine ⟨blocks, ?_, each⟩
      show (outcome (planTables c job authorizations size job.scans schedule >>= fun _ => _)
        { s with level := level.getD s.level }).2.lookUps = _
      rw [outcome_bind]
      -- the note that ends the planning is none of the lookups
      rcases hrun : outcome (planTables c job authorizations size job.scans schedule)
        { s with level := level.getD s.level } with ⟨f | splits, s'⟩
      · rw [hrun] at seen
        exact seen
      · rw [hrun] at seen
        exact (View.seen_log s' _).trans seen

/-- How often a host is looked up for a job whose host book has room for all of its hosts: once for
each table that needs its name. There is one block for each table that has a turn, and it is what
the table itself adds to the session when its turn comes. -/
theorem Planning.count_lookUps_plan {value : Value}
    (sized : job.settings.hostBookSize .none = .ok (value, size)) (schedule : Schedule ω)
    (s : Session ω) :
    ∃ blocks : List (List String),
      (outcome (plan c job authorizations schedule) s).2.lookUps = s.lookUps ++ blocks.flatten ∧
      (jobTurns c job authorizations size schedule s).map TableTurn.entry =
        job.scans.take blocks.length ∧
      List.Forall₂ (fun turn block =>
          (turn.run c job authorizations size).2.lookUps = turn.session.lookUps ++ block)
        (jobTurns c job authorizations size schedule s) blocks ∧
      ((blocks.flatten.toFinset.card : Int) ≤ size →
        ∀ host, blocks.flatten.count host = blocks.countP fun block => decide (host ∈ block)) := by
  obtain ⟨blocks, seen, each⟩ := lookUps_plan named job authorizations size sized schedule s
  have first : (jobTurns c job authorizations size schedule s).map TableTurn.entry <+: job.scans :=
    entries_jobTurns schedule s
  have entries := List.prefix_iff_eq_take.mp first
  rw [List.length_map, each.length_eq] at entries
  refine ⟨blocks, seen, entries, each.imp fun _ _ h => h.1, fun room host => ?_⟩
  refine count_flatten_of_nodup (fun block mem => ?_) host
  obtain ⟨turn, -, -, once⟩ := Result.exists_of_forall₂_of_mem each mem
  -- the hosts of one table are among those of all, so they fit into its book too
  have fewer : block.toFinset.card ≤ blocks.flatten.toFinset.card := by
    refine Finset.card_le_card fun host found => ?_
    rw [List.mem_toFinset] at found ⊢
    exact List.mem_flatten.mpr ⟨block, mem, found⟩
  exact once (by omega)

end

/-! ## Two tables on one node -/

/-- All rows of the table with an id. -/
def Extent.whole (id : TableId) : Extent := ⟨id, none, none, trivial⟩

/-- A registry with two tables of one tablet each, both on the same node. -/
def Registry.neighbours : Registry where
  names := [(.text "t", .text "1"), (.text "u", .text "2")]
  tables := [
    (.text "1", ⟨.online, [(.whole (.text "1"), ⟨.whole (.text "1"), some (.text "a:1"), none⟩)]⟩),
    (.text "2", ⟨.online, [(.whole (.text "2"), ⟨.whole (.text "2"), some (.text "a:1"), none⟩)]⟩)]
  nextId := 3

namespace Planning

/-- The job that reads both tables. -/
def neighboursJob : Job := ⟨[(.text "t", .plain), (.text "u", .plain)], []⟩

/-- The plan for both tables. -/
def neighboursRun : Result Plan × Session (Cached Registry) :=
  outcome (plan Registry.collaborators neighboursJob [] []) (.start ⟨.neighbours, .empty 1⟩)

theorem namesHosts_collaborators : Registry.collaborators.NamesHosts := by
  intro host scene name scene' answered
  cases answered
  exact Json.noConfusion

/-- The host of both tables is looked up at most once for each of them. The two blocks have one host
each. -/
theorem count_lookUps_neighbours :
    Registry.collaborators.NamesHosts ∧
      neighboursJob.settings.hostBookSize .none =
        .ok (.plain (.int HostBook.defaultSize), HostBook.defaultSize) ∧
      ∃ blocks : List (List String), neighboursRun.2.lookUps = blocks.flatten ∧
        ∀ host, blocks.flatten.count host = blocks.countP fun block => decide (host ∈ block) := by
  have sized : neighboursJob.settings.hostBookSize .none =
      .ok (.plain (.int HostBook.defaultSize), HostBook.defaultSize) := rfl
  refine ⟨namesHosts_collaborators, sized, ?_⟩
  obtain ⟨blocks, seen, -, -, counted⟩ := count_lookUps_plan namesHosts_collaborators
    neighboursJob [] HostBook.defaultSize sized [] (.start ⟨.neighbours, .empty 1⟩)
  have seen : neighboursRun.2.lookUps = blocks.flatten := seen
  have run : neighboursRun.2.lookUps = ["a", "a"] := by decide +kernel
  refine ⟨blocks, seen, counted ?_⟩
  rw [← seen, run]
  decide

/-- Though there is room for the host, it is looked up twice: each table has a host book of its
own. -/
theorem lookUps_neighbours :
    neighboursRun.1.isOk = true ∧ neighboursRun.2.lookUps = ["a", "a"] ∧
      (neighboursRun.2.lookUps.toFinset.card : Int) ≤ HostBook.defaultSize ∧
      ¬ neighboursRun.2.lookUps.Nodup := by
  have run : neighboursRun.2.lookUps = ["a", "a"] := by decide +kernel
  refine ⟨by decide +kernel, run, ?_, ?_⟩
  · rw [run]
    decide
  · rw [run]
    decide

end Planning

end ScanPlanner
