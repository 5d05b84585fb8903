import ScanPlanner.Proofs.History

/-!
# Names of tables

After any history each name leads to a table that is there, and no two names lead to the same one
(`Registry.namesLead_of_history`). The ids that names lead to are the numbers of the tables, in the
order in which these were made.
-/

namespace ScanPlanner

/-! ## Values of a ledger -/

namespace Ledger

variable {κ ν : Type} [BEq κ]

/-- The values in the order of their keys. -/
def values (entries : Ledger κ ν) : List ν := entries.map Prod.snd

/-- Erasing a key takes its value away and no other, even if further keys have the same value. -/
theorem perm_values_erase {entries : Ledger κ ν} {key : κ} {v : ν}
    (h : entries.get? key = some v) : entries.values.Perm (v :: (entries.erase key).values) := by
  unfold values
  induction entries with
  | nil => cases h
  | cons entry rest ih =>
    obtain ⟨k, w⟩ := entry
    by_cases hk : k == key
    · simp only [get?, hk, if_true, Option.some.injEq] at h
      simp [erase, hk, h]
    · simp only [get?, hk, Bool.false_eq_true, if_false] at h
      simp only [erase, hk, Bool.false_eq_true, if_false, List.map_cons]
      exact ((ih h).cons w).trans (List.Perm.swap v w _)

/-- Writing a value adds it, and may take another one away: the one that the key had. -/
theorem exists_perm_values_put (entries : Ledger κ ν) (key : κ) (v : ν) :
    ∃ kept : List ν, kept.Sublist entries.values ∧
      (entries.put key v).values.Perm (v :: kept) := by
  unfold values put
  induction entries with
  | nil => exact ⟨[], List.Sublist.refl _, List.Perm.refl _⟩
  | cons entry rest ih =>
    obtain ⟨k, w⟩ := entry
    by_cases hk : k == key
    · simp only [alter, hk, if_true, List.map_cons]
      exact ⟨rest.map Prod.snd, List.sublist_cons_self _ _, List.Perm.refl _⟩
    · simp only [alter, hk, Bool.false_eq_true, if_false, List.map_cons]
      obtain ⟨kept, sub, perm⟩ := ih
      exact ⟨w :: kept, sub.cons_cons w, (perm.cons w).trans (List.Perm.swap v w _)⟩

theorem mem_values_of_get? {entries : Ledger κ ν} {key : κ} {v : ν}
    (h : entries.get? key = some v) : v ∈ entries.values :=
  (perm_values_erase h).mem_iff.mpr List.mem_cons_self

end Ledger

/-! ## Numbers as texts -/

theorem Text.toString_inj {m n : Nat} (h : toString m = toString n) : m = n := by
  rw [Nat.toString_eq_ofList_toDigits, Nat.toString_eq_ofList_toDigits] at h
  have digits := congrArg (fun s : String => Nat.ofDigitChars 10 s.toList 0) h
  simpa using digits

/-- A text without the mark of halves has no halves. Numerals are such texts. -/
theorem Text.isWhole_of_not_mem {s : String} (h : halfMark ∉ s.toList) : isWhole s = true := by
  have units : ∀ {cs : List Char}, halfMark ∉ cs → (units cs).all isCharacter = true := by
    intro cs hcs
    induction cs using units.induct with
    | case1 => rfl
    | case2 c =>
      have other : c ≠ halfMark := fun e => hcs (e ▸ List.mem_singleton_self c)
      simpa [units, isCharacter] using other
    | case3 number rest ih => exact absurd List.mem_cons_self hcs
    | case4 c number rest other ih =>
      have rest := ih fun hmem => hcs (List.mem_cons_of_mem _ hmem)
      simpa [units, other, isCharacter] using rest
  exact units h

/-- A numeral is made of digits, so it can be part of a path. -/
theorem Text.isWhole_toString (n : Nat) : isWhole (toString n) = true := by
  refine isWhole_of_not_mem fun hmem => ?_
  rw [Nat.toString_eq_ofList_toDigits, String.toList_ofList] at hmem
  have digit := Nat.isDigit_of_mem_toDigits (by decide) (by decide) hmem
  revert digit
  decide

/-! ## Ids of tables -/

namespace Registry

variable {ids ids' : List TableId} {tables : Ledger TableId Table} {next : Nat}
  {r r' : Registry} {name : TableName} {id : TableId} {change : Change}

/-- The ids are different numbers that have been given to tables, and the tables are there. -/
structure Given (ids : List TableId) (tables : Ledger TableId Table) (next : Nat) : Prop where
  nodup : ids.Nodup
  numbered : ∀ id ∈ ids, ∃ n < next, id = .text (toString n)
  there : ∀ id ∈ ids, (tables.get? id).isSome = true

/-- Fewer ids are given as well. -/
theorem Given.sublist (h : Given ids tables next) (sub : ids'.Sublist ids) :
    Given ids' tables next where
  nodup := h.nodup.sublist sub
  numbered id hid := h.numbered id (sub.subset hid)
  there id hid := h.there id (sub.subset hid)

/-- In another order the ids are given as well. -/
theorem Given.perm (h : Given ids tables next) (perm : ids'.Perm ids) :
    Given ids' tables next where
  nodup := perm.nodup_iff.mpr h.nodup
  numbered id hid := h.numbered id (perm.subset hid)
  there id hid := h.there id (perm.subset hid)

/-- To write a table takes no other one away, so ids that lead to tables still do. -/
theorem Given.put (h : Given ids tables next) (id : TableId) (t : Table) :
    Given ids (tables.put id t) next where
  nodup := h.nodup
  numbered := h.numbered
  there id' hid' := by
    rw [Ledger.get?_put]
    split
    · rfl
    · exact h.there id' hid'

/-- The next number is a new one, since the ids that were given are lower numbers. -/
theorem Given.cons (h : Given ids tables next) (t : Table) :
    Given (.text (toString next) :: ids) (tables.put (.text (toString next)) t) (next + 1) where
  nodup := by
    refine List.nodup_cons.mpr ⟨fun old => ?_, h.nodup⟩
    obtain ⟨n, lt, e⟩ := h.numbered _ old
    cases Text.toString_inj (Json.text.inj e)
    exact Nat.lt_irrefl next lt
  numbered := by
    refine List.forall_mem_cons.mpr ⟨⟨next, Nat.lt_succ_self next, rfl⟩, fun id hid => ?_⟩
    obtain ⟨n, lt, e⟩ := h.numbered id hid
    exact ⟨n, Nat.lt_succ_of_lt lt, e⟩
  there := by
    refine List.forall_mem_cons.mpr ⟨?_, (h.put _ t).there⟩
    rw [Ledger.get?_put_self]
    rfl

/-- Deleting a table leaves those that other ids belong to. -/
theorem Given.erase (h : Given (id :: ids) tables next) :
    Given ids (tables.erase id) next where
  nodup := (List.nodup_cons.mp h.nodup).2
  numbered id' hid' := h.numbered id' (List.mem_cons_of_mem _ hid')
  there id' hid' := by
    obtain ⟨n, -, rfl⟩ := h.numbered id List.mem_cons_self
    obtain ⟨n', -, rfl⟩ := h.numbered id' (List.mem_cons_of_mem _ hid')
    have other : (Json.text (toString n) == .text (toString n')) = false := by
      rw [Json.text_beq_text]
      exact decide_eq_false fun same => (List.nodup_cons.mp h.nodup).1 (same ▸ hid')
    rw [Ledger.get?_erase_of_ne tables other]
    exact h.there _ (List.mem_cons_of_mem _ hid')

/-! ## Names -/

/-- Each name leads to a table that is there, and no two names lead to the same one. -/
def NamesLead (r : Registry) : Prop := Given r.names.values r.tables r.nextId

theorem namesLead_empty : empty.NamesLead where
  nodup := .nil
  numbered _ h := (List.not_mem_nil h).elim
  there _ h := (List.not_mem_nil h).elim

/-- The id of a name is what stands in the names for it. -/
theorem get?_of_tableId (h : r.tableId name = .ok id) : r.names.get? name = some id := by
  unfold tableId at h
  split at h
  · cases h
  · split at h
    · next found =>
      cases h
      exact found
    · cases h

/-- What can become of a registry keeps names and tables together: a new table brings its name, a
deleted one takes it away, and a new name takes the place of the old one. -/
theorem namesLead_transition (h : r.NamesLead) (ht : r.Transition change r') : r'.NamesLead := by
  -- one case for each thing that a change can do
  cases ht with
  | @created name _ _ state tablets begins =>
    obtain ⟨kept, sub, perm⟩ :=
      Ledger.exists_perm_values_put r.names name (.text (toString r.nextId))
    exact ((Given.sublist h sub).cons ⟨state, tablets⟩).perm perm
  | updated subject leads there becomes => exact Given.put h _ _
  | @renamed name newName id leads scalar =>
    -- the id that is written is the one that was erased
    have before := (Ledger.perm_values_erase (get?_of_tableId leads)).symm
    obtain ⟨kept, sub, perm⟩ :=
      Ledger.exists_perm_values_put (r.names.erase name) newName id
    exact ((Given.perm h before).sublist (sub.cons_cons id)).perm perm
  | deleted leads =>
    exact (Given.perm h (Ledger.perm_values_erase (get?_of_tableId leads)).symm).erase
  | numberLost =>
    refine ⟨h.nodup, fun id hid => ?_, h.there⟩
    obtain ⟨n, lt, e⟩ := Given.numbered h id hid
    exact ⟨n, Nat.lt_succ_of_lt lt, e⟩
  | nameLost leads bad => exact Given.sublist h ((Ledger.erase_sublist r.names _).map Prod.snd)
  | kept unled => exact h

/-- So after any history each name leads to a table of its own. -/
theorem namesLead_of_history (changes : List Change) :
    (Schedule.worldAfter empty (changes.map carryOut)).NamesLead :=
  run_keeps (fun _ _ _ _ h ht => namesLead_transition h ht) namesLead_empty

/-- A name that has an id has a table. No change leaves a name behind whose table is gone. -/
theorem NamesLead.exists_named (h : r.NamesLead) (hid : r.tableId name = .ok id) :
    ∃ t, r.named name = .ok (id, t) := by
  have hmem := Ledger.mem_values_of_get? (get?_of_tableId hid)
  obtain ⟨n, -, rfl⟩ := Given.numbered h id hmem
  obtain ⟨t, ht⟩ := Option.isSome_iff_exists.mp (Given.there h _ hmem)
  refine ⟨t, ?_⟩
  unfold named
  rw [hid, Result.bind_ok, table_of_get? rfl ht]
  rfl

/-- The ids of tables can be parts of a path. -/
theorem NamesLead.exists_text (h : r.NamesLead) (hid : r.tableId name = .ok id) :
    ∃ s, id = .text s ∧ Text.isWhole s = true := by
  obtain ⟨n, -, rfl⟩ := Given.numbered h id (Ledger.mem_values_of_get? (get?_of_tableId hid))
  exact ⟨_, rfl, Text.isWhole_toString n⟩

end Registry

end ScanPlanner
