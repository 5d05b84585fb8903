import Mathlib.Data.List.Basic
import Mathlib.Data.List.Forall2
import Mathlib.Data.List.Induction
import ScanPlanner.Ledger

/-!
# Ledgers with distinct keys

A ledger that is built by writing has no two equal keys (`Ledger.Distinct`), so what a key is looked
up with is the one entry it has (`Ledger.get?_of_mem`). Altering one entry alters what the ledger
lists by what that entry lists (`Ledger.perm_flatMap_alter`), whether its keys are distinct or not.
-/

namespace ScanPlanner.Ledger

variable {κ ν γ : Type} [BEq κ]

/-- No two keys are equal. -/
def Distinct (entries : Ledger κ ν) : Prop := entries.keys.Pairwise fun a b => (a == b) = false

@[simp] theorem distinct_nil : Distinct ([] : Ledger κ ν) := List.Pairwise.nil

@[simp] theorem distinct_cons {k : κ} {v : ν} {rest : Ledger κ ν} :
    Distinct ((k, v) :: rest) ↔ (∀ e ∈ rest, (k == e.1) = false) ∧ Distinct rest := by
  simp [Distinct, keys]

/-! ## Looking up -/

/-- What a key is looked up with stands in the ledger under a key that is equal to it. This need not
be the same key, so it is named. -/
theorem mem_of_get? {entries : Ledger κ ν} {key : κ} {v : ν} (h : entries.get? key = some v) :
    ∃ k, (k == key) = true ∧ (k, v) ∈ entries := by
  induction entries with
  | nil => simp at h
  | cons entry rest ih =>
    obtain ⟨k, w⟩ := entry
    by_cases hk : k == key
    · simp only [get?, hk, if_true, Option.some.injEq] at h
      exact ⟨k, hk, by simp [h]⟩
    · simp only [get?, hk] at h
      obtain ⟨k', hk', hmem⟩ := ih h
      exact ⟨k', hk', by simp [hmem]⟩

/-- The other way round, an entry of a ledger with distinct keys is what its key is looked up
with. -/
theorem get?_of_mem [EquivBEq κ] {entries : Ledger κ ν} (hd : Distinct entries) {k key : κ} {v : ν}
    (hmem : (k, v) ∈ entries) (hkey : (k == key) = true) : entries.get? key = some v := by
  induction entries with
  | nil => simp at hmem
  | cons entry rest ih =>
    obtain ⟨k', w⟩ := entry
    obtain ⟨head, tail⟩ := distinct_cons.mp hd
    rcases List.mem_cons.mp hmem with e | hmem
    · cases e
      simp [get?, hkey]
    · -- an entry with the key in front would be equal to the one that is meant
      have other : (k' == key) = false := by
        rw [← BEq.congr_right hkey]
        exact head _ hmem
      simpa [get?, other] using ih tail hmem

/-- A key that equals none of the keys is not found. -/
theorem get?_eq_none {entries : Ledger κ ν} {key : κ} (h : ∀ e ∈ entries, (e.1 == key) = false) :
    entries.get? key = none := by
  induction entries with
  | nil => rfl
  | cons entry rest ih =>
    have head := h entry (by simp)
    simpa [get?, head] using ih fun e he => h e (by simp [he])

/-- Equal keys are looked up with the same result. -/
theorem get?_congr [EquivBEq κ] (entries : Ledger κ ν) {a b : κ} (h : (a == b) = true) :
    entries.get? a = entries.get? b := by
  induction entries with
  | nil => rfl
  | cons entry rest ih => simp only [get?, BEq.congr_right h, ih]

/-- If only the first entries are kept, a key has what it had or nothing. A cache that drops its
last entries is such a ledger. -/
theorem get?_take (entries : Ledger κ ν) (n : Nat) (key : κ) :
    get? (entries.take n) key = entries.get? key ∨
      get? (entries.take n) key = none := by
  induction entries generalizing n with
  | nil => exact .inl (by rw [List.take_nil])
  | cons entry rest ih =>
    obtain ⟨k, v⟩ := entry
    cases n with
    | zero => exact .inr rfl
    | succ n =>
      rw [List.take_succ_cons]
      by_cases hk : k == key
      · exact .inl (by simp [get?, hk])
      · simpa [get?, hk] using ih n

/-- A key that is found is one of the keys, if equal keys are the same. -/
theorem mem_keys_of_get? [LawfulBEq κ] {entries : Ledger κ ν} {key : κ} {v : ν}
    (h : entries.get? key = some v) : key ∈ keys entries := by
  obtain ⟨k, same, mem⟩ := mem_of_get? h
  rw [← eq_of_beq same]
  exact List.mem_map_of_mem mem

/-- A key that is not found is none of the keys. For keys that are equal only to themselves this is
the converse of finding. -/
theorem not_mem_keys_of_get? [LawfulBEq κ] {entries : Ledger κ ν} {key : κ}
    (h : entries.get? key = none) : key ∉ keys entries := by
  induction entries with
  | nil => exact List.not_mem_nil
  | cons entry rest ih =>
    obtain ⟨k, v⟩ := entry
    unfold get? at h
    by_cases same : (k == key) = true
    · rw [if_pos same] at h
      cases h
    · rw [if_neg same] at h
      intro mem
      rcases List.mem_cons.mp mem with e | mem
      · exact same (beq_iff_eq.mpr e.symm)
      · exact ih h mem

/-- A ledger in which no key is found is empty. -/
theorem eq_nil_of_get? [EquivBEq κ] {entries : Ledger κ ν} (h : ∀ key, entries.get? key = none) :
    entries = [] := by
  cases entries with
  | nil => rfl
  | cons entry rest =>
    obtain ⟨k, v⟩ := entry
    have none := h k
    unfold get? at none
    rw [if_pos BEq.rfl] at none
    cases none

theorem get?_cons_self [EquivBEq κ] (k : κ) (v : ν) (rest : Ledger κ ν) :
    get? ((k, v) :: rest) k = some v := by
  rw [get?, if_pos BEq.rfl]

theorem get?_cons_of_ne {k key : κ} (other : (k == key) = false) (v : ν) (rest : Ledger κ ν) :
    get? ((k, v) :: rest) key = rest.get? key := by
  rw [get?, if_neg (by rw [other]; exact Bool.false_ne_true)]

/-- If each value is replaced by what is made of it and its key, so is what a key is looked up
with. -/
theorem exists_of_get?_map {μ : Type} {entries : Ledger κ ν} {f : κ → ν → μ} {key : κ} {w : μ}
    (h : Ledger.get? (entries.map fun entry => (entry.1, f entry.1 entry.2)) key = some w) :
    ∃ k v, entries.get? key = some v ∧ w = f k v := by
  induction entries with
  | nil => cases h
  | cons entry rest ih =>
    obtain ⟨k, v⟩ := entry
    rw [List.map_cons] at h
    unfold get? at h ⊢
    by_cases same : (k == key) = true
    · rw [if_pos same] at h ⊢
      exact ⟨k, v, rfl, (Option.some.inj h).symm⟩
    · rw [if_neg same] at h ⊢
      exact ih h

/-! ## Writing and removing -/

/-- Altering an entry adds no key but the one that is altered. If there is an entry with an equal
key, the key that is there stays. -/
theorem mem_alter {entries : Ledger κ ν} {key : κ} {f : Option ν → ν} {e : κ × ν}
    (h : e ∈ entries.alter key f) : e ∈ entries ∨ e = (key, f none) ∨
      ∃ v, (e.1 == key) = true ∧ (e.1, v) ∈ entries ∧ e.2 = f (some v) := by
  -- induction on the ledger; the entry that is altered is the first one with the key
  induction entries with
  | nil => simp_all [alter]
  | cons entry rest ih =>
    obtain ⟨k, v⟩ := entry
    by_cases hk : k == key
    · simp only [alter, hk, if_true, List.mem_cons] at h
      rcases h with rfl | h
      · exact .inr (.inr ⟨v, hk, by simp⟩)
      · exact .inl (by simp [h])
    · simp only [alter, hk, Bool.false_eq_true, if_false, List.mem_cons] at h
      rcases h with rfl | h
      · exact .inl (by simp)
      · rcases ih h with h | h | ⟨v', hv⟩
        · exact .inl (by simp [h])
        · exact .inr (.inl h)
        · exact .inr (.inr ⟨v', by simp [hv]⟩)

/-- A ledger in which something was altered is not empty. -/
theorem alter_ne_nil (entries : Ledger κ ν) (key : κ) (f : Option ν → ν) :
    entries.alter key f ≠ [] := by
  cases entries with
  | nil => simp [alter]
  | cons entry rest =>
    unfold alter
    split <;> simp

/-- Altering keeps the keys distinct: a key is added only if it was not there, equal ones
included. -/
theorem distinct_alter [EquivBEq κ] {entries : Ledger κ ν} (h : Distinct entries) (key : κ)
    (f : Option ν → ν) : Distinct (entries.alter key f) := by
  induction entries with
  | nil => simp [alter]
  | cons entry rest ih =>
    obtain ⟨k, v⟩ := entry
    obtain ⟨head, tail⟩ := distinct_cons.mp h
    by_cases hk : k == key
    · simp only [alter, hk, if_true]
      exact distinct_cons.mpr ⟨head, tail⟩
    · simp only [alter, hk, Bool.false_eq_true, if_false]
      refine distinct_cons.mpr ⟨?_, ih tail⟩
      intro e he
      -- an entry behind is one from before, or the new one, or the altered one
      rcases mem_alter he with he | rfl | ⟨v', hv', he, -⟩
      · exact head e he
      · simpa using hk
      · exact head (e.1, v') he

theorem distinct_put [EquivBEq κ] {entries : Ledger κ ν} (h : Distinct entries) (key : κ)
    (v : ν) : Distinct (entries.put key v) :=
  distinct_alter h key _

/-- Of two values written for a key the second one counts, and no trace of the first one stays. -/
theorem put_put [EquivBEq κ] (entries : Ledger κ ν) (key : κ) (v w : ν) :
    (entries.put key v).put key w = entries.put key w := by
  unfold put
  induction entries with
  | nil => simp [alter]
  | cons entry rest ih =>
    obtain ⟨k, u⟩ := entry
    by_cases hk : (k == key) = true
    · simp [alter, hk]
    · simp [alter, hk, ih]

/-- A value is written where its key stands. The entries in front of it are passed by, as none of
them has the key. -/
theorem put_append_cons [EquivBEq κ] {done rest : Ledger κ ν} {key : κ}
    (other : ∀ e ∈ done, (e.1 == key) = false) (v w : ν) :
    put (done ++ (key, v) :: rest) key w = done ++ (key, w) :: rest := by
  unfold put
  induction done with
  | nil => simp [alter]
  | cons entry done ih =>
    obtain ⟨head, tail⟩ := List.forall_mem_cons.mp other
    rw [List.cons_append, alter, if_neg (by rw [head]; exact Bool.false_ne_true), ih tail,
      List.cons_append]

/-- Writing the value of a key that is there changes this one entry, and the entries stay in their
order. -/
theorem forall₂_put [EquivBEq κ] {entries : Ledger κ ν} (h : Distinct entries) {key : κ} {v : ν}
    (mem : (key, v) ∈ entries) (w : ν) :
    List.Forall₂ (fun e e' => e' = e ∨ e = (key, v) ∧ e' = (key, w)) entries
      (entries.put key w) := by
  induction entries with
  | nil => cases mem
  | cons entry rest ih =>
    obtain ⟨k, u⟩ := entry
    obtain ⟨head, tail⟩ := distinct_cons.mp h
    unfold put alter
    -- where the entry stands first, the rest stays as it is
    rcases List.mem_cons.mp mem with e | mem
    · cases e
      rw [if_pos BEq.rfl]
      exact .cons (.inr ⟨rfl, rfl⟩) (List.forall₂_same.mpr fun _ _ => .inl rfl)
    · rw [if_neg (Bool.not_eq_true _ ▸ head (key, v) mem)]
      exact .cons (.inl rfl) (ih tail mem)

/-- Erasing takes at most one entry out and moves none. -/
theorem erase_sublist (entries : Ledger κ ν) (key : κ) :
    (entries.erase key).Sublist entries := by
  induction entries with
  | nil => exact List.Sublist.refl _
  | cons entry rest ih =>
    obtain ⟨k, v⟩ := entry
    by_cases hk : k == key
    · simp [erase, hk]
    · simpa [erase, hk] using ih

/-- Erasing an entry erases its key, so lists of keys can be followed without their values. -/
theorem keys_erase (entries : Ledger κ ν) (key : κ) :
    keys (entries.erase key) = (keys entries).erase key := by
  induction entries with
  | nil => rfl
  | cons entry rest ih =>
    obtain ⟨k, v⟩ := entry
    unfold keys at ih ⊢
    rw [List.map_cons, List.erase_cons]
    unfold erase
    by_cases same : (k == key) = true
    · rw [if_pos same, if_pos same]
    · rw [if_neg same, if_neg same, List.map_cons, ih]

/-- A key that is found has one entry to erase, even if further entries should have it. -/
theorem length_erase {entries : Ledger κ ν} {key : κ} {v : ν} (h : entries.get? key = some v) :
    (entries.erase key).length + 1 = entries.length := by
  induction entries with
  | nil => cases h
  | cons entry rest ih =>
    obtain ⟨k, w⟩ := entry
    by_cases same : (k == key) = true
    · simp [erase, same]
    · simp only [get?, same, Bool.false_eq_true, if_false] at h
      simp [erase, same, ih h]

theorem Distinct.sublist {entries entries' : Ledger κ ν} (h : Distinct entries)
    (hs : entries'.Sublist entries) : Distinct entries' :=
  List.Pairwise.sublist (hs.map Prod.fst) h

theorem Distinct.perm [EquivBEq κ] {entries entries' : Ledger κ ν} (h : Distinct entries)
    (hp : entries'.Perm entries) : Distinct entries' :=
  List.Pairwise.perm h (hp.symm.map Prod.fst) fun ne => BEq.symm_false ne

/-- After a key has been erased, no other entry has it, as the keys were distinct. -/
theorem not_beq_of_mem_erase [EquivBEq κ] {entries : Ledger κ ν} (h : Distinct entries) {key : κ}
    {e : κ × ν} (he : e ∈ entries.erase key) : (key == e.1) = false := by
  induction entries with
  | nil => simp [erase] at he
  | cons entry rest ih =>
    obtain ⟨k, v⟩ := entry
    obtain ⟨head, tail⟩ := distinct_cons.mp h
    -- once the key has been found, none of the entries behind has it
    by_cases hk : k == key
    · simp only [erase, hk, if_true] at he
      rw [← BEq.congr_left hk]
      exact head e he
    · simp only [erase, hk, Bool.false_eq_true, if_false, List.mem_cons] at he
      rcases he with rfl | he
      · rw [BEq.comm]
        simpa using hk
      · exact ih tail he

/-- So a key that has been erased is not found. -/
theorem get?_erase_self [EquivBEq κ] {entries : Ledger κ ν} (h : Distinct entries) (key : κ) :
    (entries.erase key).get? key = none := by
  refine get?_eq_none fun e he => ?_
  rw [BEq.comm]
  exact not_beq_of_mem_erase h he

/-- Of what is written into a ledger, the last value of a key counts, or else the one from before.
-/
theorem get?_foldl_put [EquivBEq κ] (entries pairs : Ledger κ ν) (key : κ) :
    get? (pairs.foldl (fun entries p => put entries p.1 p.2) entries) key =
      ((ofPairs pairs).get? key).or (entries.get? key) := by
  -- induction on the pairs from the last one on
  induction pairs using List.reverseRecOn with
  | nil => rfl
  | append_singleton pairs p ih =>
    unfold ofPairs
    rw [List.foldl_append, List.foldl_append, List.foldl_cons, List.foldl_cons, List.foldl_nil,
      List.foldl_nil, get?_put, get?_put, ih]
    by_cases same : (p.1 == key) = true
    · rw [if_pos same, if_pos same, Option.some_or]
    · rw [if_neg same, if_neg same]
      rfl

/-- What a ledger with distinct keys writes into another one is what it has itself. With repeated
keys the last value would count, and not the first one. -/
theorem get?_foldl_put_of_distinct [EquivBEq κ] {pairs : Ledger κ ν} (h : Distinct pairs)
    (entries : Ledger κ ν) (key : κ) :
    get? (pairs.foldl (fun entries p => put entries p.1 p.2) entries) key =
      (pairs.get? key).or (entries.get? key) := by
  -- induction on the pairs from the first one on, whose key is none of the later ones
  induction pairs generalizing entries with
  | nil => rfl
  | cons pair rest ih =>
    obtain ⟨k, v⟩ := pair
    obtain ⟨head, tail⟩ := distinct_cons.mp h
    rw [List.foldl_cons, ih tail, get?_put]
    by_cases same : (k == key) = true
    · have absent : get? rest key = none := by
        refine get?_eq_none fun e he => ?_
        rw [BEq.comm, ← BEq.congr_left same]
        exact head e he
      rw [absent, if_pos same, get?, if_pos same, Option.none_or, Option.some_or]
    · rw [if_neg same, get?, if_neg same]

/-! ## What a ledger lists -/

/-- Altering an entry adds to what the ledger lists just what it adds to what the entry lists,
whether the entry was there or not. -/
theorem perm_flatMap_alter (g : κ × ν → List γ) (extra : List γ) (key : κ) (f : Option ν → ν)
    (hnew : (g (key, f none)).Perm extra)
    (hold : ∀ k v, (k == key) = true → (g (k, f (some v))).Perm (g (k, v) ++ extra))
    (entries : Ledger κ ν) :
    ((entries.alter key f).flatMap g).Perm (entries.flatMap g ++ extra) := by
  -- induction on the ledger; only the first entry of the key changes
  induction entries with
  | nil => simpa [alter] using hnew
  | cons entry rest ih =>
    obtain ⟨k, v⟩ := entry
    by_cases hk : k == key
    · simp only [alter, hk, if_true, List.flatMap_cons]
      calc (g (k, f (some v)) ++ rest.flatMap g).Perm ((g (k, v) ++ extra) ++ rest.flatMap g) :=
            (hold k v hk).append_right _
        _ = g (k, v) ++ (extra ++ rest.flatMap g) := List.append_assoc ..
        (g (k, v) ++ (extra ++ rest.flatMap g)).Perm (g (k, v) ++ (rest.flatMap g ++ extra)) :=
            List.perm_append_comm.append_left _
        _ = (g (k, v) ++ rest.flatMap g) ++ extra := (List.append_assoc ..).symm
    · simp only [alter, hk, Bool.false_eq_true, if_false, List.flatMap_cons, List.append_assoc]
      exact ih.append_left _

end ScanPlanner.Ledger
