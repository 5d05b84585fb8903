import ScanPlanner.Proofs.Retry

/-!
# What one change does

Each change leads to one registry, also when it fails (`Registry.next`). It puts a new table in,
changes one table, gives a table another name or deletes it; one that fails can lose a number or a
name (`Registry.Transition`, `Registry.transition_next`). Everything that holds after all histories
follows from that, by one case for each kind of transition.
-/

namespace ScanPlanner

/-! ## Tables -/

namespace Registry.Change

/-- The name of the table whose tablets or state a change is about. Creating and renaming are about
names only. -/
def subject? : Change → Option TableName
  | .setLocation name _ _ => some name
  | .setState name _ => some name
  | .remove name _ => some name
  | .put name _ => some name
  | .delete name => some name
  | _ => none

end Registry.Change

/-- What a change makes of the table that it is about. There is one case for each kind of change
that updates a table, with what was found when it was carried out. -/
inductive Table.Transition (t : Table) : Registry.Change → Table → Prop
  | moved {name : TableName} {ref : Registry.ExtentRef} {location : Option Address} {e : Extent}
      {tablet : Tablet} (found : t.tablets.get? e = some tablet) :
      Transition t (.setLocation name ref location)
        { t with tablets := t.tablets.put e (moved e tablet location) }
  | inState {name : TableName} {state : TableState} :
      Transition t (.setState name state) (t.inState state)
  | removed {name : TableName} {ref : Registry.ExtentRef} {e : Extent} {tablet : Tablet}
      (found : t.tablets.get? e = some tablet) :
      Transition t (.remove name ref) { t with tablets := t.tablets.erase e }
  | put {name : TableName} {tablet : Tablet} (key : tablet.extent.isKey = true) :
      Transition t (.put name tablet)
        { t with tablets := t.tablets.put tablet.extent tablet }

namespace Registry

variable {r r' : Registry} {name : TableName} {id : TableId} {t t' : Table} {change : Change}

/-! ## Operations -/

/-- A tablet that a table gives for an extent is the one that is listed under it, or under an equal
one. -/
theorem get?_of_tablet {t : Table} {e : Extent} {tablet : Tablet} (h : t.tablet e = .ok tablet) :
    t.tablets.get? e = some tablet := by
  unfold Table.tablet at h
  split at h
  · cases h
  · split at h
    · next found =>
      cases h
      exact found
    · cases h

/-- What a new table begins with: its name is a new one, its points can be looked up and are in
order, and its tablets are the chain of these points. -/
structure Begins (r : Registry) (name : TableName) (points : List (Option RowKey))
    (places : Places) (tablets : Ledger Extent Tablet) : Prop where
  scalar : name.isScalar = true
  fresh : r.names.get? name = none
  keys : points.all (·.all RowKey.isScalar) = true
  comparable : points.all (fun p => points.all (comparablePoints p)) = true
  ascending : ascending points = true
  made : ∃ locations, places.forTablets (points.length + 1) = .ok locations ∧
    chain (.text (toString r.nextId)) points locations = .ok tablets

/-- Creating a table gives it the next number. All that had to be checked before is part of how the
table begins. -/
theorem create_eq_ok {name : TableName} {points : List (Option RowKey)} {places : Places}
    {state : TableState} {id : TableId} (hc : r.create name points places state = .ok (id, r')) :
    id = .text (toString r.nextId) ∧ ∃ tablets, r.Begins name points places tablets ∧
      r' = ⟨r.names.put name id, r.tables.put id ⟨state, tablets⟩, r.nextId + 1⟩ := by
  unfold create at hc
  -- past each guard in turn
  by_cases hname : (!name.isScalar) = true
  · rw [if_pos hname] at hc
    cases hc
  rw [if_neg hname] at hc
  by_cases taken : (r.names.get? name).isSome = true
  · rw [if_pos taken] at hc
    cases hc
  rw [if_neg taken] at hc
  by_cases parts : (!points.all (·.all RowKey.isScalar)) = true
  · rw [if_pos parts] at hc
    cases hc
  rw [if_neg parts] at hc
  by_cases unlike : (!points.all fun p => points.all (comparablePoints p)) = true
  · rw [if_pos unlike] at hc
    cases hc
  rw [if_neg unlike] at hc
  by_cases disorder : (!Registry.ascending points) = true
  · rw [if_pos disorder] at hc
    cases hc
  rw [if_neg disorder] at hc
  obtain ⟨locations, located, hc⟩ := Result.bind_eq_ok.mp hc
  obtain ⟨tablets, hchain, hc⟩ := Result.bind_eq_ok.mp hc
  cases hc
  refine ⟨rfl, tablets, ⟨?_, ?_, ?_, ?_, ?_, locations, located, hchain⟩, rfl⟩
  · simpa using hname
  · simpa using taken
  · rwa [Bool.not_eq_true, Bool.not_eq_false'] at parts
  · rwa [Bool.not_eq_true, Bool.not_eq_false'] at unlike
  · simpa using disorder

/-- Where a table can begin it is created, under the next number. This is the converse, so the
conditions of creating are exactly these. -/
theorem create_of_begins {name : TableName} {points : List (Option RowKey)} {places : Places}
    {tablets : Ledger Extent Tablet} (h : r.Begins name points places tablets)
    (state : TableState) : r.create name points places state =
      .ok (.text (toString r.nextId), ⟨r.names.put name (.text (toString r.nextId)),
        r.tables.put (.text (toString r.nextId)) ⟨state, tablets⟩, r.nextId + 1⟩) := by
  obtain ⟨locations, located, made⟩ := h.made
  unfold create
  rw [h.scalar, h.fresh, h.keys, h.comparable, h.ascending, located]
  simp only [Result.bind_ok, made]
  rfl

/-- Renaming a table takes its old name away and lets the new one lead to its id, wherever that name
led before. -/
theorem rename_eq_ok {name newName : TableName} (h : r.rename name newName = .ok r') :
    ∃ id, r.tableId name = .ok id ∧ newName.isScalar = true ∧
      r' = { r with names := (r.names.erase name).put newName id } := by
  obtain ⟨id, hid, h⟩ := Result.bind_eq_ok.mp h
  by_cases hname : (!newName.isScalar) = true
  · rw [if_pos hname] at h
    cases h
  · rw [if_neg hname] at h
    cases h
    exact ⟨id, hid, by simpa using hname, rfl⟩

/-- Deleting a table takes away its name and the table that the name leads to, whether or not other
names lead to it. -/
theorem delete_eq_ok {name : TableName} (h : r.delete name = .ok r') :
    ∃ id, r.tableId name = .ok id ∧
      r' = { r with names := r.names.erase name, tables := r.tables.erase id } := by
  unfold delete at h
  unfold tableId
  by_cases hname : (!name.isScalar) = true
  · rw [if_pos hname] at h
    cases h
  · rw [if_neg hname] at h ⊢
    cases hid : r.names.get? name with
    | none =>
      rw [hid] at h
      cases h
    | some id =>
      rw [hid] at h
      cases h
      exact ⟨id, rfl, rfl⟩

/-! ## Registries -/

/-- What a change makes of a registry, one case for each way in which a change can do so. It is all
that the invariants of a history need to know about carrying a change out. -/
inductive Transition (r : Registry) : Change → Registry → Prop
  | created {name : TableName} {points : List (Option RowKey)} {places : Places}
      {state : TableState} {tablets : Ledger Extent Tablet}
      (begins : r.Begins name points places tablets) :
      Transition r (.create name points places state)
        ⟨r.names.put name (.text (toString r.nextId)),
          r.tables.put (.text (toString r.nextId)) ⟨state, tablets⟩, r.nextId + 1⟩
  | updated {change : Change} {name : TableName} {id : TableId} {t t' : Table}
      (subject : change.subject? = some name) (leads : r.tableId name = .ok id)
      (there : r.tables.get? id = some t) (becomes : t.Transition change t') :
      Transition r change { r with tables := r.tables.put id t' }
  | renamed {name newName : TableName} {id : TableId} (leads : r.tableId name = .ok id)
      (scalar : newName.isScalar = true) :
      Transition r (.rename name newName)
        { r with names := (r.names.erase name).put newName id }
  | deleted {name : TableName} {id : TableId} (leads : r.tableId name = .ok id) :
      Transition r (.delete name)
        { r with names := r.names.erase name, tables := r.tables.erase id }
  | numberLost {name : TableName} {points : List (Option RowKey)} {places : Places}
      {state : TableState} :
      Transition r (.create name points places state) { r with nextId := r.nextId + 1 }
  | nameLost {name newName : TableName} {id : TableId} (leads : r.tableId name = .ok id)
      (bad : newName.isScalar = false) :
      Transition r (.rename name newName) { r with names := r.names.erase name }
  | kept {change : Change} (unled : ∀ name newName id, change = .rename name newName →
      r.tableId name ≠ .ok id) : Transition r change r

/-- The registry after a change, also one that fails. A change that fails late has written something
before it did. -/
def next (r : Registry) (change : Change) : Registry :=
  match r.apply change with
  | .ok r' => r'
  | .error _ => r.afterFailure change

theorem next_of_apply (h : r.apply change = .ok r') : r.next change = r' := by
  unfold next
  rw [h]

theorem next_of_create {points : List (Option RowKey)} {places : Places} {state : TableState}
    (hc : r.create name points places state = .ok (id, r')) :
    r.next (.create name points places state) = r' :=
  next_of_apply (Result.bind_eq_ok.mpr ⟨(id, r'), hc, rfl⟩)

/-- A change of one table is a change of the table that its name leads to. The other tables, the
names and the next number stay. -/
theorem transition_update {f : Table → Result Table} (subject : change.subject? = some name)
    (becomes : ∀ t t', f t = .ok t' → t.Transition change t') (h : r.update name f = .ok r') :
    r.Transition change r' := by
  unfold update at h
  obtain ⟨⟨id, t⟩, hnamed, h⟩ := Result.bind_eq_ok.mp h
  obtain ⟨t', ht', h⟩ := Result.bind_eq_ok.mp h
  cases h
  obtain ⟨leads, there⟩ := named_eq_ok hnamed
  exact .updated subject leads (get?_of_table there).2 (becomes t t' ht')

/-- Each change that succeeds is one of the transitions. Invariants are then proved one transition
after the other, without opening the changes again. -/
theorem transition_apply (h : r.apply change = .ok r') : r.Transition change r' := by
  -- one case for each kind of change, and in each the checks that it has passed
  cases change with
  | create name points places state =>
    obtain ⟨⟨id, r''⟩, hc, h⟩ := Result.bind_eq_ok.mp h
    cases h
    obtain ⟨rfl, tablets, begins, rfl⟩ := create_eq_ok hc
    exact .created begins
  | setLocation name ref location =>
    obtain ⟨e, -, h⟩ := Result.bind_eq_ok.mp h
    refine transition_update rfl (fun t t' ht => ?_) h
    obtain ⟨tablet, found, ht⟩ := Result.bind_eq_ok.mp ht
    cases ht
    exact .moved (get?_of_tablet found)
  | setState name state =>
    refine transition_update (f := fun t => .ok (t.inState state)) rfl (fun t t' ht => ?_) h
    cases ht
    exact .inState
  | remove name ref =>
    obtain ⟨e, -, h⟩ := Result.bind_eq_ok.mp h
    refine transition_update rfl (fun t t' ht => ?_) h
    obtain ⟨tablet, found, ht⟩ := Result.bind_eq_ok.mp ht
    cases ht
    exact .removed (get?_of_tablet found)
  | put name tablet =>
    refine transition_update rfl (fun t t' ht => ?_) (show r.put name tablet = .ok r' from h)
    by_cases key : (!tablet.extent.isKey) = true
    · rw [if_pos key] at ht
      cases ht
    · rw [if_neg key] at ht
      cases ht
      exact .put (by simpa using key)
  | rename name newName =>
    obtain ⟨id, leads, scalar, rfl⟩ := rename_eq_ok h
    exact .renamed leads scalar
  | delete name =>
    obtain ⟨id, leads, rfl⟩ := delete_eq_ok h
    exact .deleted leads

/-- A change that fails keeps the registry, or has lost a number or a name by then. No table is
changed in either case. -/
theorem transition_afterFailure {f : Failure} (h : r.apply change = .error f) :
    r.Transition change (r.afterFailure change) := by
  cases change with
  | create name points places state =>
    unfold afterFailure
    dsimp only
    split
    · exact .numberLost
    · exact .numberLost
    · exact .kept fun _ _ _ e => by cases e
  | rename name newName =>
    unfold afterFailure
    dsimp only
    cases leads : r.tableId name with
    | error f =>
      refine .kept fun _ _ _ e => ?_
      cases e
      rw [leads]
      exact fun e => by cases e
    | ok id =>
      refine .nameLost leads ?_
      -- a new name that can be looked up would have been written
      have h : r.rename name newName = .error f := h
      unfold rename at h
      rw [leads, Result.bind_ok] at h
      by_cases bad : (!newName.isScalar) = true
      · simpa using bad
      · rw [if_neg bad] at h
        cases h
  | _ => exact .kept fun _ _ _ e => by cases e

/-- What each change comes to, also one that fails. -/
theorem transition_next (r : Registry) (change : Change) : r.Transition change (r.next change) := by
  unfold next
  cases h : r.apply change with
  | ok r' => exact transition_apply h
  | error f => exact transition_afterFailure h

/-! ## Runs -/

/-- The registry after some changes, each carried out also if one before it failed. A failure is
raised to the one who asked for the change, and the registry stays in use. -/
def run (r : Registry) (changes : List Change) : Registry :=
  Schedule.worldAfter r (changes.map carryOut)

@[simp] theorem run_nil (r : Registry) : r.run [] = r := rfl

theorem run_append (r : Registry) (changes more : List Change) :
    r.run (changes ++ more) = (r.run changes).run more := by
  unfold run
  rw [List.map_append, Schedule.worldAfter_append]

/-- Carrying one change out leads to the next registry. -/
theorem run_singleton (r : Registry) (change : Change) : r.run [change] = r.next change := by
  show (outcome (carryOut change) ⟨r, []⟩).2.world = _
  unfold carryOut next
  rw [outcome_bind, Effect.outcome_world]
  cases ha : r.apply change with
  | ok r' =>
    simp only [ha]
    rfl
  | error f =>
    simp only [ha]
    rfl

theorem run_concat (r : Registry) (changes : List Change) (change : Change) :
    r.run (changes ++ [change]) = (r.run changes).next change := by
  rw [run_append, run_singleton]

/-- Each of the changes has a property in the registry that it finds. That registry is the one that
the changes before it lead to. -/
def Throughout (P : Registry → Change → Prop) (r : Registry) (changes : List Change) : Prop :=
  ∀ before change after, changes = before ++ change :: after → P (r.run before) change

/-- A property of changes holds throughout if it does for all but the last one, and for the last one
in the registry that the others have led to. -/
theorem throughout_concat {P : Registry → Change → Prop} {changes : List Change} :
    r.Throughout P (changes ++ [change]) ↔
      r.Throughout P changes ∧ P (r.run changes) change := by
  constructor
  · intro h
    refine ⟨fun before c after e => h before c (after ++ [change]) ?_, h changes change [] rfl⟩
    rw [e, List.append_assoc, List.cons_append]
  · rintro ⟨h, last⟩ before c after e
    rcases List.eq_nil_or_concat after with rfl | ⟨after, c', rfl⟩
    · obtain ⟨rfl, same⟩ := List.append_inj' e rfl
      obtain ⟨rfl, -⟩ := List.cons.inj same
      exact last
    · rw [List.concat_eq_append, ← List.cons_append, ← List.append_assoc] at e
      exact h before c after (List.append_inj' e rfl).1

/-- What the transitions of some changes keep is kept by a run of these changes. All invariants of
histories are obtained like this. -/
theorem run_keeps {P : Registry → Prop} {changes : List Change}
    (step : ∀ change ∈ changes, ∀ {r r' : Registry}, P r → r.Transition change r' → P r')
    (h : P r) : P (r.run changes) := by
  -- from the last change on, since each change starts where those before it have led
  induction changes using List.reverseRecOn with
  | nil => exact h
  | append_singleton changes change ih =>
    rw [run_concat]
    have before := ih fun c hc => step c (List.mem_append_left _ hc)
    exact step change (List.mem_append_right _ List.mem_cons_self) before (transition_next _ change)

end Registry

end ScanPlanner
