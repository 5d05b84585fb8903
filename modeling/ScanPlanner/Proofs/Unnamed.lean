import Mathlib.Data.List.Nodup
import ScanPlanner.Proofs.TableIds

/-!
# Tables without a name

Each name leads to a table that is there, and no two names lead to the same one. Each table has a
name when it begins, and keeps one through every change but a renaming that takes the name away
(`Registry.Unnames`): another table gets its name, or it gets one itself that cannot be looked up. A
table that has lost its name never has one again, so it can neither be changed nor deleted
(`Registry.named_iff_of_history`).
-/

namespace ScanPlanner

namespace Ledger

variable {κ ν : Type} [BEq κ]

/-- Keys of the same value are equal where no value comes twice. So a table has one name at most. -/
theorem beq_of_get?_of_nodup [EquivBEq κ] {entries : Ledger κ ν} (h : entries.values.Nodup)
    {a b : κ} {v : ν} (ha : entries.get? a = some v) (hb : entries.get? b = some v) :
    (a == b) = true := by
  obtain ⟨k, hk, hmem⟩ := mem_of_get? ha
  obtain ⟨k', hk', hmem'⟩ := mem_of_get? hb
  have same : (k, v) = (k', v) := List.inj_on_of_nodup_map h hmem hmem' rfl
  cases same
  exact BEq.trans (BEq.symm hk) hk'

/-- What is still found after a key has been erased was there before, and under another key. -/
theorem get?_of_get?_erase [EquivBEq κ] {entries : Ledger κ ν} (h : entries.Distinct) {key k : κ}
    {v : ν} (found : (entries.erase key).get? k = some v) :
    (key == k) = false ∧ entries.get? k = some v := by
  by_cases same : (key == k) = true
  · rw [← get?_congr _ same, get?_erase_self h] at found
    cases found
  · rw [Bool.not_eq_true] at same
    exact ⟨same, by rwa [get?_erase_of_ne _ same] at found⟩

end Ledger

namespace Registry

variable {r r' : Registry} {name name' newName : TableName} {id : TableId} {t : Table}
  {change : Change}

/-! ## Names -/

/-- A name leads to the id. -/
def Named (r : Registry) (id : TableId) : Prop := ∃ name, r.tableId name = .ok id

theorem tableId_eq_ok_iff :
    r.tableId name = .ok id ↔ name.isScalar = true ∧ r.names.get? name = some id := by
  unfold tableId
  cases name.isScalar <;> cases r.names.get? name <;> simp

/-- No two names lead to the same id. -/
theorem NamesLead.beq_of_tableId (h : r.NamesLead) (hid : r.tableId name = .ok id)
    (hid' : r.tableId name' = .ok id) : (name == name') = true :=
  Ledger.beq_of_get?_of_nodup (Given.nodup h) (get?_of_tableId hid) (get?_of_tableId hid')

/-- A name leads to a table that is there. -/
theorem NamesLead.tableExists (h : r.NamesLead) (hid : r.tableId name = .ok id) :
    r.tableExists id = .ok true := by
  obtain ⟨t, named⟩ := h.exists_named hid
  obtain ⟨scalar, found⟩ := get?_of_table (named_eq_ok named).2
  unfold Registry.tableExists
  rw [scalar, found]
  rfl

/-! ## Losing a name -/

/-- The change takes the name of the table with the id away: it gives it to another table, or gives
the table one that cannot be looked up. -/
def Unnames (r : Registry) (change : Change) (id : TableId) : Prop :=
  ∃ name newName, change = .rename name newName ∧
    (r.tableId name = .ok id ∧ newName.isScalar = false ∨
      r.tableId newName = .ok id ∧ ∃ other, r.tableId name = .ok other ∧ other ≠ id)

theorem named_of_get? (scalar : name.isScalar = true) (found : r.names.get? name = some id) :
    r.Named id :=
  ⟨name, tableId_eq_ok_iff.mpr ⟨scalar, found⟩⟩

/-- A table with a name has one after a change, unless the change takes it away or deletes the
table. -/
theorem named_transition (h : r.Orderly) (ht : r.Transition change r') (named : r.Named id)
    (there : r'.tables.get? id = some t) (kept : ¬ r.Unnames change id) : r'.Named id := by
  obtain ⟨nm, leads⟩ := named
  obtain ⟨scalar, found⟩ := tableId_eq_ok_iff.mp leads
  -- a name with another id, or with none, is another name
  have ne_name {name : TableName} (h : r.names.get? name ≠ some id) : (name == nm) = false := by
    by_contra same
    rw [Bool.not_eq_false] at same
    exact h ((Ledger.get?_congr r.names same).trans found)
  cases ht with
  | @created name _ _ _ _ begins =>
    have other : (name == nm) = false := ne_name (by rw [begins.fresh]; exact nofun)
    exact named_of_get? scalar (by rw [Ledger.get?_put_of_ne _ _ other, found])
  | updated => exact ⟨nm, leads⟩
  | @renamed name newName old oldLeads newScalar =>
    by_cases own : old = id
    · -- the table itself gets the new name
      exact named_of_get? newScalar (by rw [own]; exact Ledger.get?_put_self _ _ _)
    · have other : (name == nm) = false :=
        ne_name (by rw [get?_of_tableId oldLeads]; exact fun e => own (Option.some.inj e))
      have free : (newName == nm) = false := ne_name fun taken => kept
        ⟨name, newName, rfl, .inr ⟨tableId_eq_ok_iff.mpr ⟨newScalar, taken⟩, old, oldLeads, own⟩⟩
      refine named_of_get? scalar ?_
      rw [Ledger.get?_put_of_ne _ _ free, Ledger.get?_erase_of_ne _ other, found]
  | @deleted name old oldLeads =>
    have other : (name == nm) = false := ne_name fun same => by
      rw [get?_of_tableId oldLeads] at same
      cases same
      rw [Ledger.get?_erase_self h.tables] at there
      cases there
    exact named_of_get? scalar (by rw [Ledger.get?_erase_of_ne _ other, found])
  | numberLost => exact ⟨nm, leads⟩
  | @nameLost name newName old oldLeads bad =>
    have other : (name == nm) = false := ne_name fun same => by
      rw [get?_of_tableId oldLeads] at same
      cases same
      exact kept ⟨name, newName, rfl, .inl ⟨oldLeads, bad⟩⟩
    exact named_of_get? scalar (by rw [Ledger.get?_erase_of_ne _ other, found])
  | kept => exact ⟨nm, leads⟩

/-- The name that is taken away was the only one, so the table has none then. -/
theorem not_named_of_unnames (h : r.Orderly) (ht : r.Transition change r')
    (lost : r.Unnames change id) : ¬ r'.Named id := by
  rintro ⟨nm, leads⟩
  obtain ⟨scalar, found⟩ := tableId_eq_ok_iff.mp leads
  have eq_nm {name : TableName} (own : r.tableId name = .ok id)
      (found : r.names.get? nm = some id) : (name == nm) = true :=
    h.leads.beq_of_tableId own (tableId_eq_ok_iff.mpr ⟨scalar, found⟩)
  -- the new name was no name, or it was that of another table
  obtain ⟨name, newName, rfl, ⟨own, bad⟩ | ⟨taken, other, hother, ne⟩⟩ := lost
  · cases ht with
    | updated subject => cases subject
    | renamed _ newScalar =>
      rw [bad] at newScalar
      cases newScalar
    | nameLost _ _ =>
      obtain ⟨ne, found⟩ := Ledger.get?_of_get?_erase h.names found
      exact Bool.false_ne_true (ne.symm.trans (eq_nm own found))
    | kept unled => exact unled name newName id rfl own
  · cases ht with
    | updated subject => cases subject
    | @renamed _ _ other' hother' _ =>
      rw [hother] at hother'
      cases hother'
      by_cases same : (newName == nm) = true
      · rw [← Ledger.get?_congr _ same, Ledger.get?_put_self] at found
        exact ne (Option.some.inj found)
      · rw [Bool.not_eq_true] at same
        rw [Ledger.get?_put_of_ne _ _ same] at found
        have found := (Ledger.get?_of_get?_erase h.names found).2
        exact Bool.false_ne_true (same.symm.trans (eq_nm taken found))
    | nameLost _ bad =>
      rw [(tableId_eq_ok_iff.mp taken).1] at bad
      cases bad
    | kept unled => exact unled name newName other rfl hother

/-- An id that was given away and has no name gets none. A name can only be given to a table when it
is created or renamed, and for the latter it needs one already. -/
theorem named_of_named_transition (h : r.Used id) (ht : r.Transition change r')
    (named : r'.Named id) : r.Named id := by
  obtain ⟨nm, leads⟩ := named
  obtain ⟨scalar, found⟩ := tableId_eq_ok_iff.mp leads
  have of_erase {name : TableName} (found : (r.names.erase name).get? nm = some id) : r.Named id :=
    named_of_get? scalar (Ledger.get?_of_get?_erase h.orderly.names found).2
  -- a new table has a new identifier; a renamed one was named before
  cases ht with
  | @created name _ _ _ _ _ =>
    by_cases same : (name == nm) = true
    · obtain ⟨n, lt, rfl⟩ := h.numbered
      rw [← Ledger.get?_congr _ same, Ledger.get?_put_self] at found
      exact absurd (Text.toString_inj (Json.text.inj (Option.some.inj found))) (Nat.ne_of_gt lt)
    · rw [Bool.not_eq_true] at same
      rw [Ledger.get?_put_of_ne _ _ same] at found
      exact named_of_get? scalar found
  | updated => exact ⟨nm, leads⟩
  | @renamed name newName old oldLeads _ =>
    by_cases same : (newName == nm) = true
    · rw [← Ledger.get?_congr _ same, Ledger.get?_put_self] at found
      cases found
      exact ⟨name, oldLeads⟩
    · rw [Bool.not_eq_true] at same
      rw [Ledger.get?_put_of_ne _ _ same] at found
      exact of_erase found
  | deleted _ => exact of_erase found
  | numberLost => exact ⟨nm, leads⟩
  | nameLost _ _ => exact of_erase found
  | kept _ => exact ⟨nm, leads⟩

/-- A table that was just created has a name. -/
theorem named_of_create {points : List (Option RowKey)} {places : Places} {state : TableState}
    (hc : r.create name points places state = .ok (id, r')) : r'.Named id := by
  obtain ⟨rfl, tablets, begins, rfl⟩ := create_eq_ok hc
  exact named_of_get? begins.scalar (Ledger.get?_put_self _ _ _)

/-! ## Histories -/

/-- No change takes the name of the table with the id away. Deleting the table would, and so would
giving its name to another one. -/
def KeepsNamed (r : Registry) (changes : List Change) (id : TableId) : Prop :=
  r.Throughout (fun r change => ¬ r.Unnames change id) changes

/-- Only a name that leads to a table can be taken away, and ids that are still to be given lead
nowhere. -/
theorem Unnames.lt_nextId {n : Nat} (lost : r.Unnames change (.text (toString n)))
    (h : r.NamesLead) : n < r.nextId := by
  have number {name : TableName} (leads : r.tableId name = .ok (.text (toString n))) :
      n < r.nextId := by
    obtain ⟨m, lt, e⟩ := h.exists_number leads
    rwa [Text.toString_inj (Json.text.inj e)]
  obtain ⟨name, newName, -, ⟨own, -⟩ | ⟨own, -⟩⟩ := lost
  · exact number own
  · exact number own

/-- A number that has not been given away yet belongs to no table, so no change has taken its
name. -/
theorem keepsNamed_of_le {n : Nat} {changes : List Change} (h : r.Orderly)
    (le : (r.run changes).nextId ≤ n) : r.KeepsNamed changes (.text (toString n)) := by
  rintro before change after rfl lost
  have lt := lost.lt_nextId (orderly_run h before).leads
  rw [run_append] at le
  exact Nat.not_lt_of_le ((nextId_le_run _ _).trans le) lt

/-- A table that is there has a name if and only if no change has taken its name away. The history
may create other tables under the name, and fail as often as it likes. -/
theorem named_run_iff {changes : List Change}
    (there : (empty.run changes).tables.get? id = some t) :
    (empty.run changes).Named id ↔ empty.KeepsNamed changes id := by
  -- induction on the history from its end; the table was there before the last change, or that
  -- change created it
  induction changes using List.reverseRecOn generalizing t with
  | nil => cases there
  | append_singleton changes change ih =>
    rw [run_concat] at there ⊢
    have h := orderly_run orderly_empty changes
    have ht := transition_next (empty.run changes) change
    unfold KeepsNamed at ih ⊢
    rw [throughout_concat]
    rcases used_or_created h ht there with used | ⟨name, points, places, state, -, hc⟩
    · obtain ⟨t', there', -⟩ := used.table_of_next (table_of_get? used.scalar there)
      rw [← ih (get?_of_table there').2]
      constructor
      · intro named
        exact ⟨named_of_named_transition used ht named,
          fun lost => not_named_of_unnames h ht lost named⟩
      · rintro ⟨named, kept⟩
        exact named_transition h ht named there kept
    · have named := named_of_create hc
      obtain ⟨rfl, -⟩ := create_eq_ok hc
      refine iff_of_true named ⟨keepsNamed_of_le orderly_empty (Nat.le_refl _), fun lost => ?_⟩
      exact Nat.lt_irrefl _ (lost.lt_nextId h.leads)

/-- Names and tables after any history: each name leads to a table that is there, no two names lead
to the same one, and each table that is there has a name, unless some change has taken it away. -/
theorem names_and_tables (changes : List Change) :
    (∀ name id, (empty.run changes).tableId name = .ok id →
      (empty.run changes).tableExists id = .ok true) ∧
    (∀ name name' id, (empty.run changes).tableId name = .ok id →
      (empty.run changes).tableId name' = .ok id → (name == name') = true) ∧
    ∀ id, (empty.run changes).tableExists id = .ok true →
      ((∃ name, (empty.run changes).tableId name = .ok id) ↔
        ∀ before change after, changes = before ++ change :: after →
          ¬ (empty.run before).Unnames change id) := by
  have leads := (orderly_run orderly_empty changes).leads
  refine ⟨fun _ _ => leads.tableExists, fun _ _ _ => leads.beq_of_tableId, fun id there => ?_⟩
  obtain ⟨t, ht⟩ := exists_table_of_tableExists there
  exact named_run_iff (get?_of_table ht).2

/-- The table `t` gets the name `u`, which the second table has. -/
def takeName : List Change := [.create (.text "t") [] .nowhere .online,
  .create (.text "u") [] .nowhere .online, .rename (.text "t") (.text "u")]

/-- The second table is still there although no name leads to it. -/
theorem unnamed_takeName : (empty.run takeName).tableExists (.text "2") = .ok true ∧
    ∀ name, (empty.run takeName).tableId name ≠ .ok (.text "2") := by
  refine ⟨rfl, fun name leads => ?_⟩
  have names : (empty.run takeName).names.values = [.text "1"] := rfl
  have found := Ledger.mem_values_of_get? (get?_of_tableId leads)
  rw [names, List.mem_singleton] at found
  exact absurd (Json.text.inj found) (by decide)

end Registry

end ScanPlanner
