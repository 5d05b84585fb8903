import ScanPlanner.Proofs.TableNames

/-!
# Ids of tables

The id of a table is a number that no other table gets, before or after. So an id that has been
given away means that one table as long as the table is there, and nothing from then on
(`Registry.MeansOneTable`, `Registry.create_meansOneTable`). What can be read by an id changes only
with a change of the table whose name leads to the id at that moment (`Registry.Touches`): other
tables can be created, deleted and created once more, and any table can be renamed. -/

namespace ScanPlanner

namespace Registry

variable {r r' : Registry} {name : TableName} {id : TableId} {t t' : Table} {change : Change}
  {n : Nat}

/-! ## Order -/

/-- The keys of both ledgers are distinct, each name leads to a table, and the ids of the tables are
numbers that were given before. -/
structure Orderly (r : Registry) : Prop where
  leads : r.NamesLead
  names : r.names.Distinct
  tables : r.tables.Distinct
  numbered : ∀ id ∈ r.tables.keys, ∃ n < r.nextId, id = .text (toString n)

/-- The registry that histories begin with is in order. -/
theorem orderly_empty : empty.Orderly where
  leads := namesLead_empty
  names := Ledger.distinct_nil
  tables := Ledger.distinct_nil
  numbered _ h := (List.not_mem_nil h).elim

/-- The id of a table that is there is a number that was given before. -/
theorem Orderly.exists_number (h : r.Orderly) (there : r.tables.get? id = some t) :
    ∃ n < r.nextId, id = .text (toString n) := by
  obtain ⟨k, same, hmem⟩ := Ledger.mem_of_get? there
  obtain ⟨n, lt, rfl⟩ := h.numbered k (List.mem_map_of_mem hmem)
  -- a value that is equal to a text is that text
  exact ⟨n, lt, Json.eq_text_of_canonical (Json.canonical_eq_of_beq same).symm⟩

/-- An id that a table is said to have leads to one. -/
theorem exists_table_of_tableExists (h : r.tableExists id = .ok true) :
    ∃ t, r.table id = .ok t := by
  unfold tableExists at h
  by_cases scalar : id.isScalar = true
  · rw [scalar] at h
    obtain ⟨t, found⟩ := Option.isSome_iff_exists.mp (Except.ok.inj h)
    exact ⟨t, table_of_get? scalar found⟩
  · rw [if_pos (by simpa using scalar)] at h
    cases h

theorem NamesLead.exists_number (h : r.NamesLead) (leads : r.tableId name = .ok id) :
    ∃ n < r.nextId, id = .text (toString n) :=
  Given.numbered h id (Ledger.mem_values_of_get? (get?_of_tableId leads))

theorem nextId_le_of_transition (ht : r.Transition change r') : r.nextId ≤ r'.nextId := by
  -- either no number is taken, or the next one
  cases ht <;> first | exact Nat.le_refl _ | exact Nat.le_succ _

/-- Over a whole history the numbers only go up. -/
theorem nextId_le_run (r : Registry) (changes : List Change) : r.nextId ≤ (r.run changes).nextId :=
  run_keeps (P := fun r' => r.nextId ≤ r'.nextId)
    (fun _ _ _ _ le ht => Nat.le_trans le (nextId_le_of_transition ht)) (Nat.le_refl _)

/-- Each change keeps the order, also one that fails: a new table has the next number, which no
other one has, and no other change brings an id in. -/
theorem orderly_transition (h : r.Orderly) (ht : r.Transition change r') : r'.Orderly := by
  have leads := namesLead_transition h.leads ht
  -- identifiers are numbers below the next one: creating a table uses that one up, and no other
  -- change makes any
  cases ht with
  | @created name _ _ state tablets begins =>
    refine ⟨leads, Ledger.distinct_put h.names _ _, Ledger.distinct_put h.tables _ _, ?_⟩
    intro id hid
    rcases Ledger.keys_put r.tables (.text (toString r.nextId)) ⟨state, tablets⟩ with e | ⟨-, e⟩
    · rw [e] at hid
      obtain ⟨n, lt, rfl⟩ := h.numbered id hid
      exact ⟨n, Nat.lt_succ_of_lt lt, rfl⟩
    · rw [e, List.mem_append, List.mem_singleton] at hid
      rcases hid with hid | rfl
      · obtain ⟨n, lt, rfl⟩ := h.numbered id hid
        exact ⟨n, Nat.lt_succ_of_lt lt, rfl⟩
      · exact ⟨r.nextId, Nat.lt_succ_self _, rfl⟩
  | updated subject leads' there becomes =>
    refine ⟨leads, h.names, Ledger.distinct_put h.tables _ _, ?_⟩
    rw [Ledger.keys_put_of_get? there]
    exact h.numbered
  | @renamed name _ _ leads' scalar =>
    have less := h.names.sublist (Ledger.erase_sublist r.names name)
    exact ⟨leads, Ledger.distinct_put less _ _, h.tables, h.numbered⟩
  | deleted leads' =>
    have less := Ledger.erase_sublist r.tables
    exact ⟨leads, h.names.sublist (Ledger.erase_sublist r.names _), h.tables.sublist (less _),
      fun id hid => h.numbered id (((less _).map Prod.fst).subset hid)⟩
  | numberLost =>
    refine ⟨leads, h.names, h.tables, fun id hid => ?_⟩
    obtain ⟨n, lt, rfl⟩ := h.numbered id hid
    exact ⟨n, Nat.lt_succ_of_lt lt, rfl⟩
  | nameLost leads' bad =>
    exact ⟨leads, h.names.sublist (Ledger.erase_sublist r.names _), h.tables, h.numbered⟩
  | kept unled => exact h

/-- After any history the registry is in order. -/
theorem orderly_run (h : r.Orderly) (changes : List Change) : (r.run changes).Orderly :=
  run_keeps (fun _ _ _ _ h ht => orderly_transition h ht) h

/-! ## The table of an id -/

theorem number_beq_number (m n : Nat) :
    (Json.text (toString m) == .text (toString n)) = decide (m = n) := by
  rw [Json.text_beq_text]
  exact decide_eq_decide.mpr ⟨Text.toString_inj, fun e => by rw [e]⟩

/-- The change is about the table that has the id now. -/
def Touches (r : Registry) (change : Change) (id : TableId) : Prop :=
  ∃ name, change.subject? = some name ∧ r.tableId name = .ok id

/-- A number that was given before belongs to the same table as before, unless the change is about
that table: then the table is deleted, or is what the change makes of it. -/
theorem get?_transition (h : r.Orderly) (ht : r.Transition change r') (lt : n < r.nextId)
    (hid : id = .text (toString n)) :
    r'.tables.get? id = r.tables.get? id ∨ r.Touches change id ∧ ∃ t, r.tables.get? id = some t ∧
      (r'.tables.get? id = none ∨ ∃ t', t.Transition change t' ∧ r'.tables.get? id = some t') := by
  cases hid
  cases ht with
  | created begins =>
    left
    refine Ledger.get?_put_of_ne _ _ ?_
    rw [number_beq_number]
    exact decide_eq_false (Nat.ne_of_gt lt)
  -- the id that the name leads to is a number too, so it is this one or another one
  | @updated _ _ _ t t' subject leads there becomes =>
    obtain ⟨m, -, rfl⟩ := h.leads.exists_number leads
    by_cases same : m = n
    · subst same
      exact .inr ⟨⟨_, subject, leads⟩, t, there, .inr ⟨t', becomes, Ledger.get?_put_self _ _ _⟩⟩
    · left
      exact Ledger.get?_put_of_ne _ _ ((number_beq_number m n).trans (decide_eq_false same))
  | renamed leads scalar => exact .inl rfl
  | @deleted name _ leads =>
    obtain ⟨m, -, rfl⟩ := h.leads.exists_number leads
    by_cases same : m = n
    · subst same
      obtain ⟨t, named⟩ := h.leads.exists_named leads
      exact .inr ⟨⟨name, rfl, leads⟩, t, (get?_of_table (named_eq_ok named).2).2,
        .inl (Ledger.get?_erase_self h.tables _)⟩
    · left
      exact Ledger.get?_erase_of_ne _ ((number_beq_number m n).trans (decide_eq_false same))
  | numberLost => exact .inl rfl
  | nameLost leads bad => exact .inl rfl
  | kept unled => exact .inl rfl

/-! ## Ids that were given away -/

/-- The id is a number that was given to a table, which may be gone by now. -/
structure Used (r : Registry) (id : TableId) : Prop where
  orderly : r.Orderly
  numbered : ∃ n < r.nextId, id = .text (toString n)

theorem Used.scalar (h : r.Used id) : id.isScalar = true := by
  obtain ⟨n, -, rfl⟩ := h.numbered
  rfl

theorem Used.transition (h : r.Used id) (ht : r.Transition change r') : r'.Used id := by
  obtain ⟨n, lt, e⟩ := h.numbered
  exact ⟨orderly_transition h.orderly ht, n, Nat.lt_of_lt_of_le lt (nextId_le_of_transition ht), e⟩

/-- An id that was given away stays so over a whole history. -/
theorem Used.run (h : r.Used id) (changes : List Change) : (r.run changes).Used id :=
  run_keeps (P := fun r => r.Used id) (fun _ _ _ _ h ht => h.transition ht) h

/-- The id of a new table has been given away from then on. -/
theorem used_of_create {points : List (Option RowKey)} {places : Places} {state : TableState}
    (h : r.Orderly) (hc : r.create name points places state = .ok (id, r')) : r'.Used id := by
  obtain ⟨rfl, tablets, begins, rfl⟩ := create_eq_ok hc
  exact ⟨orderly_transition h (.created begins), r.nextId, Nat.lt_succ_self _, rfl⟩

/-- An id that was given away is given to no other table. -/
theorem Used.not_beq_of_create (h : r.Used id) {points : List (Option RowKey)} {places : Places}
    {state : TableState} {other : TableId}
    (hc : r.create name points places state = .ok (other, r')) : (other == id) = false := by
  obtain ⟨n, lt, rfl⟩ := h.numbered
  obtain ⟨rfl, -⟩ := create_eq_ok hc
  rw [number_beq_number]
  exact decide_eq_false (Nat.ne_of_gt lt)

/-- A table that is there after a change was there before it, as no id that has been used is given
to a new one. Either it is the same, or the change was one of this table. -/
theorem Used.table_of_next (h : r.Used id) (ht' : (r.next change).table id = .ok t') :
    ∃ t, r.table id = .ok t ∧ (t' = t ∨ r.Touches change id ∧ t.Transition change t') := by
  obtain ⟨n, lt, hid⟩ := h.numbered
  obtain ⟨-, found⟩ := get?_of_table ht'
  rcases get?_transition h.orderly (transition_next r change) lt hid with
    same | ⟨touched, t, there, e⟩
  · exact ⟨t', table_of_get? h.scalar (same ▸ found), .inl rfl⟩
  · refine ⟨t, table_of_get? h.scalar there, ?_⟩
    rcases e with e | ⟨t'', becomes, e⟩
    · rw [found] at e
      cases e
    · rw [found] at e
      cases e
      exact .inr ⟨touched, becomes⟩

/-- An id that has no table stays without one: tables are only created under new ids. -/
theorem Used.table_error_of_next (h : r.Used id) (gone : r.table id = .error (.unknownTableId id)) :
    (r.next change).table id = .error (.unknownTableId id) := by
  cases found : (r.next change).tables.get? id with
  | none => exact table_of_none h.scalar found
  | some t' =>
    obtain ⟨t, there, -⟩ := h.table_of_next (table_of_get? h.scalar found)
    rw [gone] at there
    cases there

/-- A change that is not about the table of the id leaves that table as it is. -/
theorem Used.table_next (h : r.Used id) (spared : ¬ r.Touches change id) :
    (r.next change).table id = r.table id := by
  obtain ⟨n, lt, hid⟩ := h.numbered
  rcases get?_transition h.orderly (transition_next r change) lt hid with same | ⟨touched, -⟩
  · unfold table
    rw [same]
  · exact absurd touched spared

/-- A table that is there after a change has an id that was used before it, or is created by it.
Histories are taken apart with this. -/
theorem used_or_created (h : r.Orderly) (ht : r.Transition change r')
    (there : r'.tables.get? id = some t) :
    r.Used id ∨ ∃ name points places state, change = .create name points places state ∧
      r.create name points places state = .ok (id, r') := by
  obtain ⟨n, lt, rfl⟩ := (orderly_transition h ht).exists_number there
  cases ht with
  | @created name points places state _ begins =>
    rcases Nat.lt_succ_iff_lt_or_eq.mp lt with lt | rfl
    · exact .inl ⟨h, n, lt, rfl⟩
    · exact .inr ⟨name, points, places, state, rfl, create_of_begins begins state⟩
  | numberLost => exact .inl ⟨h, h.exists_number there⟩
  | _ => exact .inl ⟨h, n, lt, rfl⟩

/-! ## Runs -/

/-- None of the changes is about the table that has the id when the change comes. -/
def Spares (r : Registry) (changes : List Change) (id : TableId) : Prop :=
  r.Throughout (fun r change => ¬ r.Touches change id) changes

/-- In all that follows, the id means one table. -/
structure MeansOneTable (r : Registry) (id : TableId) : Prop where
  /-- No table that is created later gets the id. -/
  unique : ∀ {changes : List Change} {name : TableName} {points : List (Option RowKey)}
    {places : Places} {state : TableState} {other : TableId} {r' : Registry},
    (r.run changes).create name points places state = .ok (other, r') → (other == id) = false
  /-- Once there is no table with the id, there is none from then on. -/
  gone : ∀ {changes : List Change} (more : List Change),
    (r.run changes).tableExists id = .ok false →
      (r.run (changes ++ more)).tableExists id = .ok false ∧
        (r.run (changes ++ more)).table id = .error (.unknownTableId id)
  /-- The table after a change is the table before it, or what the change made of it if its name led
  to the id. -/
  descends : ∀ {changes : List Change} {change : Change} {t' : Table},
    (r.run (changes ++ [change])).table id = .ok t' → ∃ t, (r.run changes).table id = .ok t ∧
      (t' = t ∨ (r.run changes).Touches change id ∧ t.Transition change t')
  /-- What is read by the id stays the same as long as no change is about its table. -/
  spared : ∀ {changes more : List Change}, (r.run changes).Spares more id →
    (r.run (changes ++ more)).tablets id = (r.run changes).tablets id ∧
      (r.run (changes ++ more)).tableState id = (r.run changes).tableState id

/-- No table has the id just if looking for one fails for that reason. -/
theorem Used.tableExists_eq_false_iff (h : r.Used id) :
    r.tableExists id = .ok false ↔ r.table id = .error (.unknownTableId id) := by
  unfold tableExists table
  rw [h.scalar]
  cases r.tables.get? id <;> simp

/-- An id that has no table has none after any history that follows. -/
theorem Used.table_error_run (h : r.Used id) (gone : r.table id = .error (.unknownTableId id))
    (changes : List Change) : (r.run changes).table id = .error (.unknownTableId id) := by
  induction changes using List.reverseRecOn with
  | nil => exact gone
  | append_singleton changes change ih =>
    rw [run_concat]
    exact (h.run changes).table_error_of_next ih

/-- A history that spares the table of an id leaves that table as it is. Other tables may come and
go, under other ids. -/
theorem Used.table_run (h : r.Used id) {changes : List Change} (spared : r.Spares changes id) :
    (r.run changes).table id = r.table id := by
  induction changes using List.reverseRecOn with
  | nil => rfl
  | append_singleton changes change ih =>
    obtain ⟨earlier, last⟩ := throughout_concat.mp spared
    rw [run_concat, (h.run changes).table_next last]
    exact ih earlier

/-- An id that was given away means one table in all that follows, until that table is deleted. -/
theorem Used.meansOneTable (h : r.Used id) : r.MeansOneTable id where
  unique hc := (h.run _).not_beq_of_create hc
  gone {changes} more gone := by
    have error := (h.run changes).table_error_run ((h.run changes).tableExists_eq_false_iff.mp gone)
    rw [run_append]
    exact ⟨((h.run changes).run more).tableExists_eq_false_iff.mpr (error more), error more⟩
  descends {changes change t'} ht' := by
    rw [run_concat] at ht'
    exact (h.run changes).table_of_next ht'
  spared {changes more} spares := by
    have same := (h.run changes).table_run spares
    rw [run_append]
    unfold tablets tableState
    rw [same]
    exact ⟨rfl, rfl⟩

/-- From the moment that a table is created, its id means that table. -/
theorem create_meansOneTable {before : List Change} {points : List (Option RowKey)}
    {places : Places} {state : TableState}
    (created : (empty.run before).create name points places state = .ok (id, r')) :
    r'.MeansOneTable id ∧ ∃ tablets, (empty.run before).Begins name points places tablets ∧
      r' = empty.run (before ++ [.create name points places state]) ∧
      r'.table id = .ok ⟨state, tablets⟩ := by
  have used := used_of_create (orderly_run orderly_empty before) created
  refine ⟨used.meansOneTable, ?_⟩
  have next := next_of_create created
  obtain ⟨rfl, tablets, begins, e⟩ := create_eq_ok created
  refine ⟨tablets, begins, next.symm.trans (run_concat _ _ _).symm, table_of_get? rfl ?_⟩
  rw [e]
  exact Ledger.get?_put_self _ _ _

/-- The registry after the table `t` was created, deleted and created once more. -/
def createdAgain : Registry where
  names := [(.text "t", .text "2")]
  tables := [(.text "2", ⟨.online, [(⟨.text "2", none, none, trivial⟩,
    ⟨⟨.text "2", none, none, trivial⟩, none, none⟩)]⟩)]
  nextId := 3

/-- The second table `t` has an id of its own, which means that table. -/
theorem createdAgain_meansOneTable :
    (empty.run [.create (.text "t") [] .nowhere .online, .delete (.text "t")]).create (.text "t") []
      .nowhere .online = .ok (.text "2", createdAgain) ∧
        createdAgain.MeansOneTable (.text "2") := by
  have created : (empty.run [.create (.text "t") [] .nowhere .online, .delete (.text "t")]).create
      (.text "t") [] .nowhere .online = .ok (.text "2", createdAgain) := by rfl
  exact ⟨created, (create_meansOneTable created).1⟩

end Registry

end ScanPlanner
