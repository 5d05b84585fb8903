import Mathlib.Data.List.Infix
import ScanPlanner.Proofs.Locality
import ScanPlanner.Proofs.Writing

/-!
# The node that hosted a tablet last

A tablet that moves takes its place from before along as its last one, or its last one if it had no
place. So what a tablet tells of its nodes, the one that hosts it or else the one that hosted it
last, is the last of all that have hosted it since its table was created
(`Registry.recent_eq_getLast?`): moves, repeated releases and changes of the table's state only add
to these nodes. What is put in from outside tells whatever it is given, so that is ruled out
(`Registry.Puts`).

Ranges of an offline table are assigned to the nodes that hosted its tablets last
(`Registry.assigned_where_hosted_last`).
-/

namespace ScanPlanner

/-! ## Lists -/

/-- An item that comes behind, if there is one, is the last one. -/
theorem getLast?_append_toList {α : Type} (xs : List α) (o : Option α) :
    (xs ++ o.toList).getLast? = (o <|> xs.getLast?) := by
  cases o with
  | none => simp
  | some a => simp

/-- Of items no two of which have a property, at most one is kept by it. -/
theorem map_filter_of_pairwise {α β : Type} {p : α → Bool} {xs : List α}
    (apart : xs.Pairwise fun a b => p a = true → p b = false) (b : β) :
    (xs.filter p).map (fun _ => b) = if xs.any p then [b] else [] := by
  induction xs with
  | nil => rfl
  | cons x xs ih =>
    obtain ⟨head, tail⟩ := List.pairwise_cons.mp apart
    cases hx : p x with
    | false => simpa [hx] using ih tail
    | true =>
      have none : xs.filter p = [] := List.filter_eq_nil_iff.mpr fun y hy => by
        simp [head y hy hx]
      simp [hx, none]

/-- To list an item if it has a property is to keep those that have it. -/
theorem flatMap_singleton_if {α : Type} (p : α → Bool) (xs : List α) :
    xs.flatMap (fun x => if p x then [x] else []) = xs.filter p := by
  induction xs with
  | nil => rfl
  | cons x xs ih =>
    rw [List.flatMap_cons, ih, List.filter_cons]
    cases p x <;> rfl

/-! ## Tablets -/

/-- The node that hosts the tablet, or else the one that hosted it last. Ranges of an offline table
are assigned to it. -/
def Tablet.recent (t : Tablet) : Option Address := t.location <|> t.lastLocation

/-- What a change makes of a tablet that it does not put in: the tablet tells of the node that hosts
it now, or else what it told before. -/
theorem Table.Transition.recent {t t' : Table} {change : Registry.Change}
    (h : t.Transition change t') (distinct : t.tablets.Distinct) {e : Extent}
    (unput : ∀ name tablet, change = .put name tablet → (tablet.extent == e) = false)
    {tablet' : Tablet} (found : t'.tablets.get? e = some tablet') :
    ∃ tablet, t.tablets.get? e = some tablet ∧
      tablet'.recent = (tablet'.location <|> tablet.recent) := by
  have same {tablet : Tablet} : tablet.recent = (tablet.location <|> tablet.recent) := by
    unfold Tablet.recent
    cases tablet.location <;> rfl
  -- a tablet that moves keeps the address that it leaves; a tablet that is put in is another one
  cases h with
  | @moved _ _ location e' tablet there =>
    by_cases own : (e' == e) = true
    · rw [← Ledger.get?_congr _ own, Ledger.get?_put_self] at found
      cases found
      exact ⟨tablet, (Ledger.get?_congr _ own).symm.trans there, rfl⟩
    · rw [Ledger.get?_put_of_ne _ _ (Bool.not_eq_true _ ▸ own)] at found
      exact ⟨tablet', found, same⟩
  | @inState _ state =>
    cases state with
    | online => exact ⟨tablet', found, same⟩
    | offline =>
      obtain ⟨k, tablet, there, rfl⟩ :=
        Ledger.exists_of_get?_map (f := fun k tablet => Table.moved k tablet none) found
      exact ⟨tablet, there, rfl⟩
  | removed => exact ⟨tablet', (Ledger.get?_of_get?_erase distinct found).2, same⟩
  | @put name tablet key =>
    rw [Ledger.get?_put_of_ne _ _ (unput name tablet rfl)] at found
    exact ⟨tablet', found, same⟩

namespace Registry

variable {r : Registry} {name : TableName} {id : TableId} {e : Extent} {t : Table} {tablet : Tablet}
  {points : List (Option RowKey)} {places : Places} {state : TableState}
  {before changes : List Change}

/-- The tablets of a new table are where they have been last: a place that is given to a tablet is
remembered at once. -/
theorem location_of_chain {locations : List (Option Address)} {tablets : Ledger Extent Tablet}
    (h : chain id points locations = .ok tablets) :
    ∀ entry ∈ tablets, entry.2.lastLocation = entry.2.location := by
  refine chain_induction
    (P := fun _ made => ∀ entry ∈ made, entry.2.lastLocation = entry.2.location) h
    (fun _ he => (List.not_mem_nil he).elim) ?_
  intro p places made e each _ entry he
  rcases Ledger.mem_alter he with he | rfl | ⟨_, -, -, written⟩
  · exact each entry he
  · rfl
  · rw [written]

/-! ## The nodes of a tablet -/

/-- The node that hosts the tablet with an extent now, if there is one. -/
def hostOf (r : Registry) (id : TableId) (e : Extent) : Option Address :=
  match r.table id with
  | .ok t => (t.tablets.get? e).bind Tablet.location
  | .error _ => none

/-- The nodes that host the tablet one after the other, at first and after each of the changes.
While the tablet is not hosted it adds nothing, so the last of them is the one that hosted it
last. -/
def hosts (r : Registry) (changes : List Change) (id : TableId) (e : Extent) : List Address :=
  changes.inits.filterMap fun made => (r.run made).hostOf id e

/-- Without a change there is the node that hosts the tablet now, if there is one. -/
theorem hosts_nil (r : Registry) (id : TableId) (e : Extent) :
    r.hosts [] id e = (r.hostOf id e).toList := by
  show List.filterMap _ [[]] = _
  rw [List.filterMap_cons, List.filterMap_nil, run_nil]
  cases r.hostOf id e <;> rfl

/-- The last change adds the node that hosts the tablet after it, if there is one. So the history
can be followed from its end. -/
theorem hosts_concat (r : Registry) (changes : List Change) (change : Change) (id : TableId)
    (e : Extent) : r.hosts (changes ++ [change]) id e =
      r.hosts changes id e ++ ((r.run (changes ++ [change])).hostOf id e).toList := by
  have inits : (changes ++ [change]).inits = changes.inits ++ [changes ++ [change]] :=
    List.inits_append changes [change]
  unfold hosts
  rw [inits, List.filterMap_append, List.filterMap_cons, List.filterMap_nil]
  cases (r.run (changes ++ [change])).hostOf id e <;> rfl

/-- The node that hosts a tablet now is the location of the tablet. -/
theorem hostOf_of_get? (there : r.table id = .ok t) (found : t.tablets.get? e = some tablet) :
    r.hostOf id e = tablet.location := by
  unfold hostOf
  rw [there]
  simp only [found, Option.bind_some]

/-- The change puts a tablet with the extent into the table that has the id now. -/
def Puts (r : Registry) (change : Change) (id : TableId) (e : Extent) : Prop :=
  ∃ name tablet, change = .put name tablet ∧ r.tableId name = .ok id ∧
    (tablet.extent == e) = true

/-- What happens to a table after it was created is part of a history. -/
theorem run_of_create (created : (empty.run before).create name points places state = .ok (id, r))
    (changes : List Change) :
    r.run changes = empty.run (before ++ [.create name points places state] ++ changes) := by
  rw [run_append, run_concat, next_of_create created]

/-- The registry is sturdy however the history goes on after the table was created. -/
theorem sturdy_of_create
    (created : (empty.run before).create name points places state = .ok (id, r))
    (changes : List Change) : (r.run changes).Sturdy := by
  rw [run_of_create created]
  exact sturdy_run _

/-- Each tablet is filed under its extent however the history goes on. -/
theorem filed_of_create
    (created : (empty.run before).create name points places state = .ok (id, r))
    (changes : List Change) : (r.run changes).Each Table.Filed := by
  rw [run_of_create created]
  exact filed_of_history _

/-- After any history of a table, each of its tablets that was not put in tells of the last of all
nodes that have hosted it. -/
theorem recent_eq_getLast?
    (created : (empty.run before).create name points places state = .ok (id, r))
    (unput : r.Throughout (fun r change => ¬ r.Puts change id e) changes)
    (there : (r.run changes).table id = .ok t) (found : t.tablets.get? e = some tablet) :
    tablet.recent = (r.hosts changes id e).getLast? := by
  have used := used_of_create (orderly_run orderly_empty before) created
  -- induction on the history from its end: the last change adds at most one node
  induction changes using List.reverseRecOn generalizing t tablet with
  | nil =>
    obtain ⟨-, tablets, begins, -, there'⟩ := create_meansOneTable created
    rw [run_nil] at there
    have hosted := hostOf_of_get? there found
    rw [there'] at there
    cases there
    obtain ⟨locations, -, made⟩ := begins.made
    obtain ⟨k, -, mem⟩ := Ledger.mem_of_get? found
    rw [hosts_nil, hosted, Tablet.recent, location_of_chain made _ mem]
    cases tablet.location <;> rfl
  | append_singleton changes change ih =>
    obtain ⟨earlier, last⟩ := throughout_concat.mp unput
    rw [hosts_concat, getLast?_append_toList, hostOf_of_get? there found]
    rw [run_concat] at there
    have keyed := (sturdy_of_create created changes).keyed
    obtain ⟨t₀, there₀, e' | ⟨⟨nm, subject, leads⟩, becomes⟩⟩ :=
      (used.run changes).table_of_next there
    · subst e'
      rw [← ih earlier there₀ found, Tablet.recent]
      cases tablet.location <;> rfl
    · -- the change that was made here puts no tablet with this extent in
      have unput : ∀ name tablet, change = .put name tablet → (tablet.extent == e) = false := by
        rintro name tablet rfl
        cases subject
        by_contra same
        exact last ⟨_, tablet, rfl, leads, Bool.not_eq_false _ ▸ same⟩
      obtain ⟨tablet₀, found₀, step⟩ :=
        becomes.recent (each_table keyed there₀).distinct unput found
      rw [step, ih earlier there₀ found₀]

end Registry

/-! ## Ranges of an offline table -/

namespace Table

variable {t : Table} {tablets : List Tablet}

/-- A table lists one tablet for each extent. Tablets are listed under their own extents, which are
distinct, and sorting keeps them. -/
theorem pairwise_sorted (filed : Filed t.tablets) (distinct : t.tablets.Distinct)
    (sorted : t.sorted = .ok tablets) :
    tablets.Pairwise fun u v => (u.extent == v.extent) = false := by
  obtain ⟨entries, order, h⟩ := Result.bind_eq_ok.mp sorted
  cases h
  have perm : entries.Perm t.tablets := Sorting.perm_of_sort? order
  have apart := distinct.perm perm
  unfold Ledger.Distinct Ledger.keys at apart
  rw [List.pairwise_map] at apart ⊢
  refine apart.imp_of_mem fun hx hy ne => ?_
  rw [← BEq.congr_left (filed _ (perm.subset hx)), ← BEq.congr_right (filed _ (perm.subset hy))]
  exact ne

/-- Of the tablets that a table lists, the one with an extent is the one that is found for it. Equal
extents count as one here. -/
theorem eq_of_mem_sorted (filed : Filed t.tablets) (distinct : t.tablets.Distinct)
    (sorted : t.sorted = .ok tablets) {e : Extent} {tablet : Tablet}
    (found : t.tablets.get? e = some tablet) {u : Tablet} (hu : u ∈ tablets)
    (own : (u.extent == e) = true) : u = tablet := by
  obtain ⟨entries, order, h⟩ := Result.bind_eq_ok.mp sorted
  cases h
  obtain ⟨entry, he, rfl⟩ := List.mem_map.mp hu
  have mem := (Sorting.perm_of_sort? order).subset he
  have there := Ledger.get?_of_mem distinct mem (BEq.trans (filed _ mem) own)
  exact Option.some.inj (there.symm.trans found)

end Table

/-- A tablet that is the only one with its extent has the ranges that it helps to cover, on its own
node and nowhere else. -/
theorem Binning.ranges_spread_of_extent {tablets : List Tablet} {e : Extent} {tablet : Tablet}
    (apart : tablets.Pairwise fun u v => (u.extent == v.extent) = false)
    (only : ∀ u ∈ tablets, (u.extent == e) = true → u = tablet) (node : Tablet → Address)
    (ranges : List KeyRange) (location : Address) :
    (spread node tablets ranges).ranges location e =
      if node tablet == location then
        ranges.filter fun r => (Tablet.coverers tablets r).any fun u => u.extent == e
      else [] := by
  -- among the tablets that cover a range one at most has the extent
  have own (r : KeyRange) : ((Tablet.coverers tablets r).filter fun u =>
      node u == location && u.extent == e) = (Tablet.coverers tablets r).filter fun u =>
        node tablet == location && u.extent == e := by
    refine List.filter_congr fun u hu => ?_
    cases same : u.extent == e with
    | false => rw [Bool.and_false, Bool.and_false]
    | true => rw [only u ((Tablet.coverers_sublist _ _).subset hu) same]
  rw [ranges_spread]
  simp only [own]
  cases node tablet == location with
  | false => simp
  | true =>
    rw [if_pos rfl, ← flatMap_singleton_if]
    refine List.flatMap_congr fun r _ => ?_
    simp only [Bool.true_and]
    refine map_filter_of_pairwise ((apart.sublist (Tablet.coverers_sublist _ _)).imp ?_) r
    intro u v ne same
    by_contra also
    rw [Bool.not_eq_false] at also
    rw [BEq.trans same (BEq.symm also)] at ne
    cases ne

/-- The last of the nodes that hosted a tablet, as ranges are assigned to it; the empty address
stands for none. -/
def Offline.servedLast (hosts : List Address) : Address :=
  match hosts.getLast? with
  | some location => if location.isPresent then location else .text ""
  | none => .text ""

namespace Registry

variable {r : Registry} {name : TableName} {id : TableId} {e : Extent} {t : Table} {tablet : Tablet}
  {points : List (Option RowKey)} {places : Places} {state : TableState}
  {before changes : List Change}

/-- After any history of a table, a tablet of it that was not put in and that no node hosts tells of
the node that hosted it last: the last one of all that have hosted it since the table was created,
or none if none has. And when ranges of the table are assigned, those that the tablet helps to cover
are assigned to that node, in the order given, and to no other. -/
theorem assigned_where_hosted_last
    (created : (empty.run before).create name points places state = .ok (id, r))
    (unput : r.Throughout (fun r change => ¬ r.Puts change id e) changes)
    (there : (r.run changes).table id = .ok t) (found : t.tablet e = .ok tablet)
    (unhosted : tablet.location = none) :
    tablet.lastLocation = (r.hosts changes id e).getLast? ∧
    ∀ {ranges : List KeyRange} {binning : Binning} {notes : List Note} {scene : Scene Registry},
      outcome (Offline.bin catalog id ranges) ⟨r.run changes, notes⟩ = (.ok (some binning), scene) →
      ∃ tablets, (r.run changes).tablets id = .ok tablets ∧ ∀ location,
        binning.ranges location e =
          if Offline.servedLast (r.hosts changes id e) == location then
            ranges.filter fun range => (Tablet.coverers tablets range).any fun u => u.extent == e
          else [] := by
  have listed := get?_of_tablet found
  have last : tablet.lastLocation = (r.hosts changes id e).getLast? := by
    rw [← recent_eq_getLast? created unput there listed, Tablet.recent, unhosted]
    rfl
  refine ⟨last, fun {ranges binning notes scene} bin => ?_⟩
  obtain ⟨notes', run⟩ := store.outcome_bin id ranges (r.run changes) notes
  rw [Store.catalog_registry, bin, Prod.mk.injEq] at run
  obtain ⟨tablets, now, -, rfl⟩ := Store.offline_eq_some run.1.symm
  have listing := tablets_of_table there
  have sorted : (r.run changes).tablets id = .ok tablets :=
    Store.tablets_of_tabletsNow now fun _ missing => by
      cases Table.eq_unlike_of_sorted (listing.symm.trans missing)
  refine ⟨tablets, sorted, fun location => ?_⟩
  rw [listing] at sorted
  have distinct := (each_table (sturdy_of_create created changes).keyed there).distinct
  have filed := each_table (filed_of_create created changes) there
  -- the tablet is the only one with its extent among those that are listed
  have only : ∀ u ∈ tablets, (u.extent == e) = true → u = tablet :=
    fun u hu => Table.eq_of_mem_sorted filed distinct sorted listed hu
  have node : Offline.lastAddress tablet = Offline.servedLast (r.hosts changes id e) := by
    unfold Offline.lastAddress Offline.servedLast
    cases here : (r.hosts changes id e).getLast? <;> simp [last, here]
  rw [Binning.ranges_spread_of_extent (Table.pairwise_sorted filed distinct sorted) only, node]

/-- The only tablet of the table `t` moves and is released, twice. -/
def releases : List Change := [
  .setLocation (.text "t") (.index 0) (some (.text "b:1")),
  .setLocation (.text "t") (.index 0) none, .setState (.text "t") .online,
  .setState (.text "t") .offline]

/-- The extent of the only tablet of a table. -/
def undivided : Extent := ⟨.text "1", none, none, trivial⟩

/-- The registry after the table `t` was created with one tablet. -/
def hostedAtA : Registry where
  names := [(.text "t", .text "1")]
  tables := [(.text "1",
    ⟨.online, [(undivided, ⟨undivided, some (.text "a:1"), some (.text "a:1")⟩)]⟩)]
  nextId := 2

/-- The tablet was hosted at two nodes and has been released, twice; its ranges are assigned to the
second node. -/
theorem assigned_after_releases :
    hostedAtA.hosts releases (.text "1") undivided = [.text "a:1", .text "b:1"] ∧
    (hostedAtA.run releases).table (.text "1") =
      .ok ⟨.offline, [(undivided, ⟨undivided, none, some (.text "b:1")⟩)]⟩ ∧
    ∃ binning, outcome (Offline.bin catalog (.text "1") [.acrossHalves])
        ⟨hostedAtA.run releases, []⟩ = (.ok (some binning), ⟨hostedAtA.run releases, []⟩) ∧
      binning.ranges (.text "b:1") undivided = [.acrossHalves] := by
  have created : (empty.run []).create (.text "t") [] (.listed [some (.text "a:1")]) .online =
      .ok (.text "1", hostedAtA) := by rfl
  have hosts : hostedAtA.hosts releases (.text "1") undivided = [.text "a:1", .text "b:1"] := by rfl
  have there : (hostedAtA.run releases).table (.text "1") =
      .ok ⟨.offline, [(undivided, ⟨undivided, none, some (.text "b:1")⟩)]⟩ := by rfl
  -- none of the changes puts a tablet in
  have unput : hostedAtA.Throughout
      (fun r change => ¬ r.Puts change (.text "1") undivided) releases := by
    rintro before change after history ⟨name, tablet, rfl, -, -⟩
    have mem : Change.put name tablet ∈ releases := by
      rw [history]
      exact List.mem_append_right _ List.mem_cons_self
    simp [releases] at mem
  have bin : outcome (Offline.bin catalog (.text "1") [.acrossHalves])
      ⟨hostedAtA.run releases, []⟩ = (.ok (some (.spread Offline.lastAddress
        [⟨undivided, none, some (.text "b:1")⟩] [.acrossHalves])),
          ⟨hostedAtA.run releases, []⟩) := by
    rfl
  obtain ⟨-, assigned⟩ := assigned_where_hosted_last created unput there rfl rfl
  obtain ⟨tablets, sorted, ranges⟩ := assigned bin
  rw [tablets_of_table there] at sorted
  cases sorted
  have served := ranges (.text "b:1")
  rw [hosts] at served
  exact ⟨hosts, there, _, bin, served⟩

end Registry

end ScanPlanner
