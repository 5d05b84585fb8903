import ScanPlanner.Proofs.Lookups
import ScanPlanner.Planning.Rehearsal

/-!
# Remembered hosts

Addresses are resolved one after the other with one host book (`HostBook.turns`). The host book
keeps the names that were told last, as many as it has room for: its entries are the first ones of
one list, `HostBook.recent`, which does not depend on its size. So a larger host book knows all that
a smaller one knows, and looks up no host that the smaller one does not look up at the same turn.
With room for all hosts, none is looked up again once it has a name (`HostBook.turns_transparent`).
-/

namespace ScanPlanner

variable {ω : Type}

/-! ## Entries in front -/

namespace Ledger

variable {κ ν : Type} [BEq κ]

/-- Of the entries that are left in front, the one that is missing in their number is the last. So a
host book that moves an entry to the front keeps the first ones of the longer list. -/
theorem take_erase_take (entries : Ledger κ ν) (n : Nat) (key : κ) :
    (erase (entries.take (n + 1)) key).take n = (entries.erase key).take n := by
  induction entries generalizing n with
  | nil => rfl
  | cons entry rest ih =>
    obtain ⟨k, v⟩ := entry
    rw [List.take_succ_cons]
    unfold erase
    by_cases same : (k == key) = true
    · -- the key is in front, so what follows it moves up
      rw [if_pos same, if_pos same, List.take_take, Nat.min_self]
    · rw [if_neg same, if_neg same]
      cases n with
      | zero => rfl
      | succ n => rw [List.take_succ_cons, List.take_succ_cons, ih]

/-- What is found among the first entries is found among more of them, with the same value. A larger
host book knows what a smaller one knows. -/
theorem get?_take_of_le {entries : Ledger κ ν} {m n : Nat} (le : m ≤ n) {key : κ} {v : ν}
    (h : get? (entries.take m) key = some v) : get? (entries.take n) key = some v := by
  have shorter : (entries.take n).take m = entries.take m := by
    rw [List.take_take, Nat.min_eq_left le]
  rcases get?_take (entries.take n) m key with same | none
  · rw [← same, shorter, h]
  · rw [shorter, h] at none
    cases none

end Ledger

/-! ## Names in the order in which they were told -/

namespace HostBook

variable (lookup : String → Result Json)

/-- A host that is given its name goes to the front; one whose lookup fails does not. -/
def toFront (names : Ledger String Json) (host : String) : Ledger String Json :=
  match lookup host with
  | .ok name => (host, name) :: names.erase host
  | .error _ => names

/-- The names of hosts that were asked for, the one asked for last in front. There is no limit to
their number; a host book holds the first of them. -/
def recent (hosts : List String) : Ledger String Json := hosts.foldl (toFront lookup) []

/-- A name of the host is among the entries. What is null names nothing. -/
def knows (names : Ledger String Json) (host : String) : Bool :=
  match names.get? host with
  | some name => decide (name ≠ .null)
  | none => false

variable {lookup : String → Result Json} {names : Ledger String Json} {hosts : List String}
  {host : String} {name : Json}

/-- A host that has a name goes to the front with it, and its older entry is removed. -/
theorem toFront_of_ok (h : lookup host = .ok name) :
    toFront lookup names host = (host, name) :: names.erase host := by
  unfold toFront
  rw [h]

theorem toFront_of_error {f : Failure} (h : lookup host = .error f) :
    toFront lookup names host = names := by
  unfold toFront
  rw [h]

/-- The names after one host more differ from those before by that host alone. -/
theorem recent_concat (hosts : List String) (host : String) :
    recent lookup (hosts ++ [host]) = toFront lookup (recent lookup hosts) host :=
  List.foldl_append

/-- A host with an entry is known unless what the entry tells is null. -/
theorem knows_of_get? (found : names.get? host = some name) :
    knows names host = decide (name ≠ .null) := by
  unfold knows
  rw [found]

theorem not_knows_of_get? (absent : names.get? host = none) : knows names host = false := by
  unfold knows
  rw [absent]

/-- What a smaller host book knows, a larger one knows as well: the entries of the first are the
first ones of the second. -/
theorem knows_take_of_le {m n : Nat} (le : m ≤ n) (h : knows (names.take m) host = true) :
    knows (names.take n) host = true := by
  cases found : Ledger.get? (names.take m) host with
  | none =>
    rw [not_knows_of_get? found] at h
    cases h
  | some name =>
    rw [knows_of_get? (Ledger.get?_take_of_le le found)]
    rwa [knows_of_get? found] at h

/-- The names are those that lookups tell, one for each host that was asked for and has one. -/
structure Told (lookup : String → Result Json) (hosts : List String) (names : Ledger String Json) :
    Prop where
  once : names.keys.Nodup
  told : ∀ e ∈ names, lookup e.1 = .ok e.2
  asked : ∀ host ∈ names.keys, host ∈ hosts
  kept : ∀ host ∈ hosts, ∀ name, lookup host = .ok name → host ∈ names.keys

/-- One host more: it is in front if it has a name, and the others are told as before. Nothing is
said of sizes here, since the list is the same for all of them. -/
theorem Told.toFront (h : Told lookup hosts names) (host : String) :
    Told lookup (hosts ++ [host]) (toFront lookup names host) := by
  cases looked : lookup host with
  | error f =>
    rw [toFront_of_error looked]
    refine ⟨h.once, h.told, fun k hk => List.mem_append_left _ (h.asked k hk),
      fun k hk name hn => ?_⟩
    rcases List.mem_append.mp hk with hk | hk
    · exact h.kept k hk name hn
    · rw [List.mem_singleton.mp hk, looked] at hn
      cases hn
  | ok name =>
    rw [toFront_of_ok looked]
    -- apart from the host in front, the hosts are those from before without it
    have others : Ledger.keys ((host, name) :: names.erase host) = host :: names.keys.erase host :=
      congrArg (host :: ·) (Ledger.keys_erase names host)
    have less := Ledger.erase_sublist names host
    refine ⟨?_, fun e he => ?_, fun k hk => ?_, fun k hk v hv => ?_⟩
    · rw [others]
      exact List.nodup_cons.mpr ⟨h.once.not_mem_erase, h.once.erase host⟩
    · rcases List.mem_cons.mp he with rfl | he
      · exact looked
      · exact h.told e (less.subset he)
    · rw [others] at hk
      rcases List.mem_cons.mp hk with rfl | hk
      · exact List.mem_append_right _ (List.mem_singleton_self k)
      · exact List.mem_append_left _ (h.asked k (List.mem_of_mem_erase hk))
    · rw [others, List.mem_cons]
      by_cases same : k = host
      · exact .inl same
      · rcases List.mem_append.mp hk with hk | hk
        · exact .inr ((List.mem_erase_of_ne same).mpr (h.kept k hk v hv))
        · exact absurd (List.mem_singleton.mp hk) same

/-- Whatever was asked for, the names in the order in which they were told are the ones that lookups
tell. -/
theorem told_recent (hosts : List String) : Told lookup hosts (recent lookup hosts) := by
  induction hosts using List.reverseRecOn with
  | nil => exact ⟨.nil, nofun, nofun, nofun⟩
  | append_singleton hosts host ih =>
    rw [recent_concat]
    exact ih.toFront host

/-- There are no more names than hosts, counted without repetitions. With room for these nothing is
ever dropped. -/
theorem Told.length_le (h : Told lookup hosts names) : names.length ≤ hosts.toFinset.card := by
  have length : names.length = names.keys.toFinset.card := by
    rw [List.toFinset_card_of_nodup h.once]
    exact (List.length_map _).symm
  rw [length]
  refine Finset.card_le_card fun host hhost => ?_
  rw [List.mem_toFinset] at hhost ⊢
  exact h.asked host hhost

/-- A host with a name is known just if it was asked for. Hosts without a name are never known. -/
theorem Told.knows_eq (h : Told lookup hosts names) (looked : lookup host = .ok name)
    (named : name ≠ .null) : knows names host = decide (host ∈ hosts) := by
  cases found : names.get? host with
  | none =>
    have absent := Ledger.not_mem_keys_of_get? found
    rw [not_knows_of_get? found]
    exact (decide_eq_false fun asked => absent (h.kept host asked name looked)).symm
  | some v =>
    obtain ⟨k, same, mem⟩ := Ledger.mem_of_get? found
    obtain rfl := eq_of_beq same
    have told := h.told _ mem
    rw [looked] at told
    cases told
    rw [knows_of_get? found]
    simp [named, h.asked k (List.mem_map_of_mem mem)]

/-! ## Host books -/

/-- The host book has room for so many names, and holds those told last among the names of the
hosts. -/
structure Recalls (lookup : String → Result Json) (size : Int) (hosts : List String)
    (book : HostBook) : Prop where
  room : 1 ≤ size
  capacity : book.capacity = size
  entries : book.entries = (recent lookup hosts).take size.toNat

variable {size : Int} {book : HostBook}

theorem recalls_empty (room : 1 ≤ size) : Recalls lookup size [] (Lru.empty size) :=
  ⟨room, rfl, List.take_nil.symm⟩

/-- The host book with a name in front, and of the others those that there is room for. -/
def remember (book : HostBook) (host : String) (name : Json) : HostBook :=
  ⟨book.capacity, (host, name) :: (Ledger.erase book.entries host).take (book.capacity.toNat - 1)⟩

/-- A host book that puts a name in front, and drops what there is no room for, recalls one host
more. -/
theorem Recalls.remember (h : Recalls lookup size hosts book) (looked : lookup host = .ok name) :
    Recalls lookup size (hosts ++ [host]) (book.remember host name) := by
  refine ⟨h.room, h.capacity, ?_⟩
  obtain ⟨n, hn⟩ : ∃ n, size.toNat = n + 1 := by
    have := h.room
    exact ⟨size.toNat - 1, by omega⟩
  show (host, name) :: (Ledger.erase book.entries host).take (book.capacity.toNat - 1) =
    (recent lookup (hosts ++ [host])).take size.toNat
  -- dropping before the host is put in front or after it leaves the same entries
  rw [recent_concat, toFront_of_ok looked, h.entries, h.capacity, hn, Nat.add_sub_cancel,
    List.take_succ_cons, Ledger.take_erase_take]

/-- A lookup that fails leaves the host book as it was, and no name was told by it. -/
theorem Recalls.failed (h : Recalls lookup size hosts book) {f : Failure}
    (looked : lookup host = .error f) : Recalls lookup size (hosts ++ [host]) book := by
  refine ⟨h.room, h.capacity, ?_⟩
  rw [recent_concat, toFront_of_error looked]
  exact h.entries

/-- A host that is found has the name that lookups tell, and no other one is dropped. What is found
moves to the front. -/
theorem Recalls.find? (h : Recalls lookup size hosts book) {book' : HostBook}
    (found : book.find? host = some (name, book')) :
    lookup host = .ok name ∧ book' = book.remember host name := by
  obtain ⟨v, hv, e⟩ := Option.map_eq_some_iff.mp found
  cases e
  obtain ⟨k, same, mem⟩ := Ledger.mem_of_get? hv
  obtain rfl := eq_of_beq same
  rw [h.entries] at mem
  refine ⟨(told_recent hosts).told _ (List.mem_of_mem_take mem), ?_⟩
  -- taking the host out makes room for one entry, so putting it back drops nothing
  have length := Ledger.length_erase hv
  have full : book.entries.length ≤ book.capacity.toNat := by
    rw [h.entries, h.capacity]
    exact List.length_take_le _ _
  unfold HostBook.remember
  rw [List.take_of_length_le (by omega)]

/-! ## One address -/

/-- The host that the name of an address is asked for, if it has one. -/
def host? (address : Address) : Option String :=
  match hostOfAddress address with
  | .ok host => if host = "" then none else some host
  | .error _ => none

/-- The host book after an address was resolved. One that fails leaves it as it was. -/
def after (book : HostBook) : Result (Json × HostBook) → HostBook
  | .ok (_, book') => book'
  | .error _ => book

/-- What resolving an address comes to: an answer, some lookups, and the host book after it. All
three are told by the hosts that were asked for before. -/
structure Comes (lookup : String → Result Json) (size : Int) (hosts : List String)
    (answer : Result Json) (made : List String) (book : HostBook) (s : Session ω)
    (run : Result (Json × HostBook) × Session ω) : Prop where
  answer : run.1.map Prod.fst = answer
  recalls : Recalls lookup size hosts (book.after run.1)
  lookUps : run.2.lookUps = s.lookUps ++ made

/-- The hosts looked up are those of the events that happened. -/
theorem lookUps_of_happened {s s' : Session ω} {events : List Event}
    (h : s'.happened = s.happened ++ events) :
    s'.lookUps = s.lookUps ++ events.filterMap Event.host? := by
  show s'.seen View.lookUps = s.seen View.lookUps ++ _
  rw [View.seen_eq, View.seen_eq, h, List.filterMap_append]
  rfl

section

variable {c : Collaborators ω}
  (fixed : ∀ host scene, (outcome (c.canonical host) scene).1 = lookup host)
include fixed

/-- A lookup, with the host book as it was or as it was left by a search for the host. The search
may have found the host without a name, which does not count as found. -/
theorem comes_lookUp (h : Recalls lookup size hosts book) (s : Session ω) {middle : HostBook}
    (same : ∀ name, middle.remember host name = book.remember host name) :
    Comes lookup size (hosts ++ [host]) (lookup host) [host] book s
      (outcome ((lookUp c host).run middle) s) := by
  obtain ⟨s', run, -, -, happened⟩ := outcome_lookUp c host middle s
  rw [fixed] at run
  rw [run]
  cases looked : lookup host with
  | error f => exact ⟨rfl, h.failed looked, lookUps_of_happened happened⟩
  | ok name =>
    have capacity := congrArg Lru.capacity (same name)
    change middle.capacity = book.capacity at capacity
    -- there is room for one host at least, so the insertion cannot fail
    have room : ¬ middle.capacity < 1 := by
      have := h.room
      rw [capacity, h.capacity]
      omega
    have inserted : middle.insert host name = .ok (book.remember host name) := by
      unfold Lru.insert
      rw [if_neg room, ← same]
      rfl
    simp only [Result.bind_ok, inserted]
    exact ⟨rfl, h.remember looked, lookUps_of_happened happened⟩

/-- A host with a name is looked up unless the host book knows it. An address without a host looks
nothing up, and one that is no text fails. -/
theorem comes_resolve (h : Recalls lookup size hosts book) (address : Address) (s : Session ω) :
    Comes lookup size (hosts ++ (host? address).toList) (hostOfAddress address >>= hostName lookup)
      ((host? address).toList.filter fun host => !knows book.entries host) book s
      (outcome ((resolve c address).run book) s) := by
  have nothing : Recalls lookup size (hosts ++ []) book := by rwa [List.append_nil]
  unfold resolve host?
  rw [StateT.run_bind, outcome_bind, Naming.outcome_lift, Step.outcome_ofResult]
  cases hostOfAddress address with
  | error f => exact ⟨rfl, nothing, (List.append_nil _).symm⟩
  | ok host =>
    simp only [Except.map, Result.bind_ok]
    unfold hostName
    by_cases empty : host = ""
    · rw [if_pos empty, if_pos empty, if_pos empty]
      exact ⟨rfl, nothing, (List.append_nil _).symm⟩
    rw [if_neg empty, if_neg empty, if_neg empty, StateT.run_bind, outcome_bind,
      Naming.outcome_book]
    dsimp only
    -- a host that is not found is not known; one that is found is known unless its name is null
    cases hf : book.find? host with
    | none =>
      have unknown : knows book.entries host = false :=
        not_knows_of_get? (Option.map_eq_none_iff.mp hf)
      simpa [unknown] using comes_lookUp fixed h s fun _ => rfl
    | some found =>
      obtain ⟨name, book'⟩ := found
      have known := knows_of_get? (Lru.get?_eq_some_of_find? hf)
      obtain ⟨looked, rfl⟩ := h.find? hf
      dsimp only
      rw [StateT.run_bind, outcome_bind, Naming.outcome_setBook]
      dsimp only
      by_cases null : name = .null
      · -- what is found names nothing, and the host is looked up once more
        have again (other : Json) :
            (book.remember host name).remember host other = book.remember host other := by
          simp [remember, Ledger.erase]
        rw [if_pos null]
        simpa [known, null] using comes_lookUp fixed h s again
      · rw [if_neg null]
        exact ⟨looked.symm, h.remember looked, by simp [known, null]⟩

end

/-! ## One address after the other -/

/-- The outcome of one turn: the answer, and the hosts that were looked up for it. -/
structure Turn where
  answer : Result Json
  lookUps : List String
deriving DecidableEq

/-- The turns in which addresses are resolved one after the other, with one host book. -/
def turns (c : Collaborators ω) (book : HostBook) (s : Session ω) : List Address → List Turn
  | [] => []
  | address :: rest =>
    let run := outcome ((resolve c address).run book) s
    ⟨run.1.map Prod.fst, run.2.lookUps.drop s.lookUps.length⟩ ::
      turns c (book.after run.1) run.2 rest

/-- The hosts that were looked up, turn by turn. -/
def lookUpsOf (ts : List Turn) : List String := ts.flatMap Turn.lookUps

/-- The hosts that are looked up for an address after the names of others were asked for. -/
def missed (lookup : String → Result Json) (size : Nat) (hosts : List String) (address : Address) :
    List String :=
  (host? address).toList.filter fun host => !knows ((recent lookup hosts).take size) host

/-- The turns of a host book, told by the addresses before each of them alone. There is no host book
in them: a host is looked up if it is not among the last ones. -/
def turnsBy (lookup : String → Result Json) (size : Nat) (hosts : List String) :
    List Address → List Turn
  | [] => []
  | address :: rest =>
    ⟨hostOfAddress address >>= hostName lookup, missed lookup size hosts address⟩ ::
      turnsBy lookup size (hosts ++ (host? address).toList) rest

/-- Whatever the host book and the session are, the turns depend on the addresses before them
alone. -/
theorem turns_eq_turnsBy {c : Collaborators ω}
    (fixed : ∀ host scene, (outcome (c.canonical host) scene).1 = lookup host)
    (h : Recalls lookup size hosts book) (s : Session ω) (addresses : List Address) :
    turns c book s addresses = turnsBy lookup size.toNat hosts addresses := by
  -- the host book that a turn leaves recalls the addresses up to it, so the next turn can be told
  induction addresses generalizing hosts book s with
  | nil => rfl
  | cons address rest ih =>
    have comes := comes_resolve fixed h address s
    unfold turns turnsBy
    dsimp only
    rw [comes.answer, comes.lookUps, List.drop_left, ih comes.recalls, h.entries]
    rfl

/-! ## Turn by turn -/

variable {n : Nat}

/-- Each turn answers what the lookup of the host tells, and looks up that host or none. -/
theorem forall₂_turnsBy (hosts : List String) (addresses : List Address) :
    List.Forall₂ (fun address turn => turn.answer = (hostOfAddress address >>= hostName lookup) ∧
        turn.lookUps.Sublist (host? address).toList)
      addresses (turnsBy lookup n hosts addresses) := by
  induction addresses generalizing hosts with
  | nil => exact .nil
  | cons address rest ih => exact .cons ⟨rfl, List.filter_sublist⟩ (ih _)

theorem length_turnsBy (hosts : List String) (addresses : List Address) :
    (turnsBy lookup n hosts addresses).length = addresses.length :=
  (forall₂_turnsBy hosts addresses).length_eq.symm

/-- The turns of addresses that follow others are told by those others alone, whatever the host book
has dropped. -/
theorem turnsBy_append (hosts : List String) (before rest : List Address) :
    turnsBy lookup n hosts (before ++ rest) = turnsBy lookup n hosts before ++
      turnsBy lookup n (hosts ++ before.filterMap host?) rest := by
  induction before generalizing hosts with
  | nil => rw [List.filterMap_nil, List.append_nil]; rfl
  | cons address before ih =>
    rw [List.cons_append, turnsBy, turnsBy, ih, List.append_assoc, List.cons_append]
    cases h : host? address <;> simp [h]

/-- What a larger host book looks up at a turn, a smaller one looks up as well, for it knows no
more. -/
theorem sublist_missed {m n : Nat} (le : m ≤ n) (hosts : List String) (address : Address) :
    (missed lookup n hosts address).Sublist (missed lookup m hosts address) := by
  refine List.monotone_filter_right _ fun host unknown => ?_
  rw [Bool.not_eq_true'] at unknown ⊢
  by_contra known
  rw [Bool.not_eq_false] at known
  rw [knows_take_of_le le known] at unknown
  cases unknown

/-- Over all addresses, what a larger host book looks up is among what a smaller one does, in the
same order. -/
theorem sublist_lookUpsOf_turnsBy {m n : Nat} (le : m ≤ n) (hosts : List String)
    (addresses : List Address) :
    (lookUpsOf (turnsBy lookup n hosts addresses)).Sublist
      (lookUpsOf (turnsBy lookup m hosts addresses)) := by
  induction addresses generalizing hosts with
  | nil => exact .slnil
  | cons address rest ih =>
    exact (sublist_missed le hosts address).append (ih _)

/-! ## Room for all hosts -/

/-- With room for all names, a host that has one is looked up just if it was not asked for before.
-/
theorem missed_of_room (room : hosts.toFinset.card ≤ n) {address : Address}
    (asked : host? address = some host) (looked : lookup host = .ok name) (named : name ≠ .null) :
    missed lookup n hosts address = if host ∈ hosts then [] else [host] := by
  have told : Told lookup hosts (recent lookup hosts) := told_recent hosts
  unfold missed
  rw [List.take_of_length_le (told.length_le.trans room), asked]
  by_cases mem : host ∈ hosts <;> simp [told.knows_eq looked named, mem]

/-- With room for all hosts, one that has a name is looked up once if it is asked for now and was
not before, and otherwise never. -/
theorem count_lookUpsOf_turnsBy (looked : lookup host = .ok name) (named : name ≠ .null)
    (addresses : List Address)
    (room : (hosts ++ addresses.filterMap host?).toFinset.card ≤ n) :
    (lookUpsOf (turnsBy lookup n hosts addresses)).count host =
      if host ∉ hosts ∧ host ∈ addresses.filterMap host? then 1 else 0 := by
  -- induction on the addresses, with the hosts asked for before them; each address is asked for,
  -- and added to those hosts
  induction addresses generalizing hosts with
  | nil => simp [turnsBy, lookUpsOf]
  | cons address rest ih =>
    have now : hosts.toFinset.card ≤ n := (toFinset_card_le_append _ _).trans room
    have more : ((hosts ++ (host? address).toList) ++ rest.filterMap host?).toFinset.card ≤ n := by
      cases h : host? address <;> simpa [h] using room
    have later := ih more
    show ((missed lookup n hosts address) ++ lookUpsOf (turnsBy lookup n _ rest)).count host = _
    rw [List.count_append, later]
    cases asked : host? address with
    | none => simp [missed, asked]
    | some other =>
      by_cases same : other = host
      · subst same
        rw [missed_of_room now asked looked named]
        by_cases mem : other ∈ hosts <;> simp [asked, mem]
      · -- another host is looked up at this turn, if any
        have none : (missed lookup n hosts address).count host = 0 := by
          refine List.count_eq_zero_of_not_mem fun mem => ?_
          have mem := (List.mem_filter.mp mem).1
          rw [asked] at mem
          exact same (List.mem_singleton.mp mem).symm
        have other : host ≠ other := fun e => same e.symm
        rw [none]
        simp [asked, other]

/-- The turn of an address comes after as many turns as there are addresses before it. -/
theorem getElem?_turnsBy (before : List Address) (address : Address) (rest : List Address)
    (hosts : List String) :
    (turnsBy lookup n hosts (before ++ address :: rest))[before.length]? =
      some ⟨hostOfAddress address >>= hostName lookup,
        missed lookup n (hosts ++ before.filterMap host?) address⟩ := by
  rw [turnsBy_append, List.getElem?_append_right (length_turnsBy hosts before).le, length_turnsBy,
    Nat.sub_self]
  rfl

/-- The answer for an address with a host is what the lookup of the host tells, at every turn. -/
theorem hostName_of_host? {address : Address} (asked : host? address = some host) :
    (hostOfAddress address >>= hostName lookup) = lookup host := by
  unfold host? at asked
  cases h : hostOfAddress address with
  | error f => simp [h] at asked
  | ok other =>
    rw [h] at asked
    dsimp only at asked
    by_cases empty : other = ""
    · rw [if_pos empty] at asked
      cases asked
    · rw [if_neg empty] at asked
      cases asked
      rw [Result.bind_ok, hostName, if_neg empty]

/-- Remembering names changes no answer, and a larger host book never costs lookups. With room for
all hosts, each one that has a name is looked up once, at its first turn. -/
theorem turns_transparent {c : Collaborators ω}
    (fixed : ∀ host scene, (outcome (c.canonical host) scene).1 = lookup host) {m n : Int}
    (room : 1 ≤ m) (le : m ≤ n) (addresses : List Address) (s : Session ω) :
    List.Forall₂ (fun address turn =>
        turn.answer = (hostOfAddress address >>= hostName lookup) ∧
          turn.lookUps.Sublist (host? address).toList)
      addresses (turns c (Lru.empty n) s addresses) ∧
    (lookUpsOf (turns c (Lru.empty n) s addresses)).Sublist
      (lookUpsOf (turns c (Lru.empty m) s addresses)) ∧
    (((addresses.filterMap host?).toFinset.card : Int) ≤ n →
      ∀ host name, lookup host = .ok name → name ≠ .null → host ∈ addresses.filterMap host? →
        (lookUpsOf (turns c (Lru.empty n) s addresses)).count host = 1 ∧
        ∀ before address rest, addresses = before ++ address :: rest →
          host? address = some host →
          (turns c (Lru.empty n) s addresses)[before.length]? =
            some ⟨.ok name, if host ∈ before.filterMap host? then [] else [host]⟩) := by
  rw [turns_eq_turnsBy fixed (recalls_empty room),
    turns_eq_turnsBy fixed (recalls_empty (room.trans le))]
  refine ⟨forall₂_turnsBy [] addresses, ?_, fun fits host name looked named mem => ⟨?_, ?_⟩⟩
  · exact sublist_lookUpsOf_turnsBy (Int.toNat_le_toNat le) [] addresses
  · have fits : ([] ++ addresses.filterMap host?).toFinset.card ≤ n.toNat := by
      rw [List.nil_append]
      omega
    rw [count_lookUpsOf_turnsBy looked named addresses fits, if_pos ⟨List.not_mem_nil, mem⟩]
  · rintro before address rest rfl asked
    have fits : (before.filterMap host?).toFinset.card ≤ n.toNat := by
      -- the hosts that were asked for before are among all of them
      have fewer := toFinset_card_le_append (before.filterMap host?)
        ((address :: rest).filterMap host?)
      rw [← List.filterMap_append] at fewer
      omega
    rw [getElem?_turnsBy, hostName_of_host? asked, looked, List.nil_append,
      missed_of_room fits asked looked named]

/-- Of the hosts `a`, `b` and `c` the last one cannot be looked up. -/
def shortLookup (host : String) : Result Json :=
  if host = "c" then .error (.raised "lookup failed: c") else .ok (.text ("host-" ++ host))

/-- Collaborators whose lookups are these. -/
def shortCollaborators : Collaborators (Cached Registry) :=
  { Registry.collaborators with canonical := fun host => Effect.ofResult (shortLookup host) }

/-- Addresses on three hosts, two without a host among them. -/
def shortAddresses : List Address :=
  [.text "a:1", .text "b:1", .text ":7", .text "[c]:1", .text "", .text "a:2", .text "c:3"]

/-- A host book for one host looks `a` up again, and one for three hosts only `c`, which has no
name. -/
theorem turns_transparent_short :
    (∀ host scene, (outcome (shortCollaborators.canonical host) scene).1 = shortLookup host) ∧
      (lookUpsOf (turns shortCollaborators (Lru.empty 3) (.start ⟨.neighbours, .empty 1⟩)
        shortAddresses)).Sublist
        (lookUpsOf (turns shortCollaborators (Lru.empty 1) (.start ⟨.neighbours, .empty 1⟩)
          shortAddresses)) ∧
      lookUpsOf (turns shortCollaborators (Lru.empty 3) (.start ⟨.neighbours, .empty 1⟩)
        shortAddresses) = ["a", "b", "c", "c"] ∧
      lookUpsOf (turns shortCollaborators (Lru.empty 1) (.start ⟨.neighbours, .empty 1⟩)
        shortAddresses) = ["a", "b", "c", "a", "c"] ∧
      (turns shortCollaborators (Lru.empty 3) (.start ⟨.neighbours, .empty 1⟩)
        shortAddresses)[5]? = some ⟨.ok (.text "host-a"), []⟩ := by
  have fixed : ∀ host scene,
      (outcome (shortCollaborators.canonical host) scene).1 = shortLookup host :=
    fun host scene => congrArg Prod.fst (Effect.outcome_ofResult (shortLookup host) scene)
  obtain ⟨-, fewer, once⟩ := turns_transparent fixed (m := 1) (n := 3) (by decide) (by decide)
    shortAddresses (.start ⟨.neighbours, .empty 1⟩)
  have hosts : shortAddresses.filterMap host? = ["a", "b", "c", "a", "c"] := by decide +kernel
  obtain ⟨-, first⟩ := once (by rw [hosts]; decide) "a" (.text "host-a") rfl nofun
    (by rw [hosts]; decide)
  refine ⟨fixed, fewer, by decide +kernel, by decide +kernel, ?_⟩
  have again := first [.text "a:1", .text "b:1", .text ":7", .text "[c]:1", .text ""] (.text "a:2")
    [.text "c:3"] rfl (by decide +kernel)
  have earlier : "a" ∈ List.filterMap host?
      [.text "a:1", .text "b:1", .text ":7", .text "[c]:1", .text ""] := by decide +kernel
  rwa [if_pos earlier] at again

end HostBook

end ScanPlanner
