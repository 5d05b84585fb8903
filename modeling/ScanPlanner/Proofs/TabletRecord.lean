import Mathlib.Data.Prod.Lex
import Mathlib.Data.String.Basic
import ScanPlanner.Proofs.TakingOffline
import ScanPlanner.Service.Reply

/-!
# Tablets as records

A tablet is read back from its record, whatever the order of the members (`Tablet.ofJson_of_shows`).
And tablets with different end rows have one ascending order, whatever the order in which they are
given (`Tablet.sort_of_perm`); it is the one in which a table lists them (`Table.sorted_eq_sort`).
-/

namespace ScanPlanner

/-! ## Members -/

/-- Entries with distinct keys may be listed in any order. A service may send the members of a
record in any order. -/
theorem Ledger.Distinct.get?_of_perm {κ ν : Type} [BEq κ] [EquivBEq κ] {entries others : Ledger κ ν}
    (distinct : Distinct entries) (perm : others.Perm entries) (key : κ) :
    others.get? key = entries.get? key := by
  have distinct' : Distinct others :=
    (perm.map Prod.fst).symm.pairwise distinct fun h => BEq.symm_false h
  -- with distinct keys an entry is found wherever it stands
  cases h : entries.get? key with
  | some v =>
    obtain ⟨k, hk, hmem⟩ := mem_of_get? h
    exact get?_of_mem distinct' (perm.symm.subset hmem) hk
  | none =>
    cases h' : others.get? key with
    | none => rfl
    | some v =>
      obtain ⟨k, hk, hmem⟩ := mem_of_get? h'
      rw [get?_of_mem distinct (perm.subset hmem) hk] at h
      cases h

theorem RowKey.ofJson_toJson (k : Option RowKey) : ofJson (toJson k) = .ok k := by
  cases k with
  | none => rfl
  | some k => exact congrArg Except.ok k.ofValue?_value

/-- A value that may be missing is read back, unless it is null itself. -/
theorem Json.given?_ofGiven {v : Option Json} (h : v ≠ some .null) : (ofGiven v).given? = v := by
  cases v with
  | none => rfl
  | some v =>
    cases v with
    | null => exact absurd rfl h
    | _ => rfl

/-! ## Tablets -/

/-- A tablet as the rest of the library makes them: its table's id is a text, it can be told which
of its rows comes first, and a node that is not there is none. -/
structure Tablet.IsTyped (t : Tablet) : Prop where
  id : ∃ s, t.extent.tableId = .text s
  told : RowKey.toldEnds t.extent.prev t.extent.last = true
  location : t.location ≠ some .null
  lastLocation : t.lastLocation ≠ some .null

/-- The value is an object with the members of the tablet's record, in any order. -/
def Json.ShowsTablet (v : Json) (t : Tablet) : Prop :=
  ∃ members recorded, v = .object members ∧ t.toJson = .object recorded ∧ members.Perm recorded

theorem Tablet.showsTablet_toJson (t : Tablet) : t.toJson.ShowsTablet t :=
  ⟨_, _, rfl, rfl, .refl _⟩

theorem Extent.make_self {e : Extent} (told : RowKey.toldEnds e.prev e.last = true) :
    make e.tableId e.prev e.last = .ok e := by
  unfold make
  rw [dif_pos ⟨told, e.ordered⟩]

namespace Tablet

variable {t : Tablet}

/-- A tablet is read back from its record, in whatever order its members come and whatever others
there are. -/
theorem ofJson_of_shows {v : Json} (shown : v.ShowsTablet t) (typed : t.IsTyped) :
    ofJson v = .ok t := by
  obtain ⟨members, recorded, rfl, record, perm⟩ := shown
  -- the names of the members differ, so their order does not matter
  have distinct : Ledger.Distinct (t.extent.members ++ [
      ("location", .ofGiven t.location), ("lastLocation", .ofGiven t.lastLocation)]) := by
    unfold Ledger.Distinct
    show List.Pairwise _ ["tableId", "prevEndRow", "endRow", "location", "lastLocation"]
    decide
  cases record
  have required : Json.require (.object members) "tableId" = .ok t.extent.tableId := by
    unfold Json.require
    simp only [distinct.get?_of_perm perm]
    rfl
  have member (name : String) {v : Json}
      (h : Ledger.get? (t.extent.members ++ [("location", .ofGiven t.location),
        ("lastLocation", .ofGiven t.lastLocation)]) name = some v) :
      Json.memberOrNull (.object members) name = .ok v := by
    unfold Json.memberOrNull Json.member?
    simp only [distinct.get?_of_perm perm, h]
    rfl
  have prev := member "prevEndRow" rfl
  have last := member "endRow" rfl
  have location := member "location" rfl
  have lastLocation := member "lastLocation" rfl
  have extent : Extent.ofJson (.object members) = .ok t.extent := by
    unfold Extent.ofJson
    simp only [required, prev, last, RowKey.ofJson_toJson, Result.bind_ok]
    exact Extent.make_self typed.told
  unfold ofJson
  simp only [extent, location, lastLocation, Result.bind_ok, Json.given?_ofGiven typed.location,
    Json.given?_ofGiven typed.lastLocation]
  rfl

end Tablet

/-- What shows a tablet is read as that tablet. -/
theorem Json.orNull_of_shows {v : Json} {t : Tablet} (shown : v.ShowsTablet t)
    (typed : t.IsTyped) : orNull Tablet.ofJson v = .ok (some t) := by
  have read := Tablet.ofJson_of_shows shown typed
  obtain ⟨members, recorded, rfl, -, -⟩ := shown
  show (Tablet.ofJson (.object members) >>= fun t => Pure.pure (some t)) = _
  rw [read]
  rfl

/-- Records of tablets are read one by one. -/
theorem Json.mapM_orNull_of_shows {items : List Json} {ts : List Tablet}
    (shown : List.Forall₂ ShowsTablet items ts) (typed : ∀ t ∈ ts, t.IsTyped) :
    items.mapM (orNull Tablet.ofJson) = .ok (ts.map some) := by
  induction shown with
  | nil => rfl
  | cons head _ ih =>
    obtain ⟨first, rest⟩ := List.forall_mem_cons.mp typed
    rw [List.mapM_cons, orNull_of_shows head first, ih rest]
    rfl

/-! ## Order -/

theorem Json.isBefore_text (s t : String) : (Json.text s).isBefore (.text t) = decide (s < t) := by
  unfold Json.isBefore Json.before?
  simp

namespace Extent

/-- Where an extent comes in the order: by the id of its table, which is a text, then by its end. -/
def rank (e : Extent) : String ×ₗ Cut :=
  toLex (match e.tableId with
    | .text s => s
    | _ => "", Cut.upTo e.last)

/-- Extents of tables that are named by texts come in the order of their tables, and of one table in
the order of their last rows. -/
theorem isBefore_iff_rank_lt {a b : Extent} (ha : ∃ s, a.tableId = .text s)
    (hb : ∃ s, b.tableId = .text s) : a.isBefore b = true ↔ a.rank < b.rank := by
  obtain ⟨s, hs⟩ := ha
  obtain ⟨t, ht⟩ := hb
  unfold isBefore rank
  rw [hs, ht, Prod.Lex.toLex_lt_toLex]
  rw [Json.text_beq_text, Json.isBefore_text]
  by_cases same : s = t
  · simp [same]
  · simp [same]

/-- Extents of the same rank end at the same row. The id of the table is part of the rank. -/
theorem last_eq_of_rank {a b : Extent} (h : a.rank = b.rank) : a.last = b.last := by
  have cuts : Cut.upTo a.last = Cut.upTo b.last := congrArg (fun r => (ofLex r).2) h
  revert cuts
  cases a.last with
  | none => cases b.last with
    | none => exact fun _ => rfl
    | some l => exact nofun
  | some k => cases b.last with
    | none => exact nofun
    | some l =>
      intro cuts
      cases cuts
      rfl

end Extent

/-- Tablets with different end rows have one ascending order, so it does not matter in which order
they are listed. With equal end rows, the sort would keep the order in which they came. -/
theorem Tablet.sort_of_perm {ts us : List Tablet} (ids : ∀ t ∈ ts, ∃ s, t.extent.tableId = .text s)
    (ends : (ts.map fun t => t.extent.last).Nodup) (perm : us.Perm ts) :
    Tablet.sort us = Tablet.sort ts := by
  refine Sorting.sort?_of_perm
    (Sorting.sort_of_perm (fun t => t.extent.rank) ?_ ?_ perm) perm
  · intro t ht u hu
    rw [← not_lt, ← Extent.isBefore_iff_rank_lt (ids u hu) (ids t ht), Bool.not_eq_true,
      Bool.not_eq_true']
  · intro t ht u hu same
    exact List.inj_on_of_nodup_map ends ht hu (Extent.last_eq_of_rank same)

/-- A table lists its tablets in ascending order. It sorts them by the extents that they are listed
under, and these are their own. -/
theorem Table.sorted_eq_sort {t : Table} (filed : Filed t.tablets)
    (ids : ∀ entry ∈ t.tablets, ∃ s, entry.2.extent.tableId = .text s) :
    t.sorted = Tablet.sort (t.tablets.map Prod.snd) := by
  -- each tablet is filed under its own extent
  have entries : t.tablets = (t.tablets.map Prod.snd).map fun u => (u.extent, u) := by
    rw [List.map_map]
    refine Eq.symm ((List.map_congr_left fun entry he => ?_).trans (List.map_id _))
    obtain ⟨s, text⟩ := ids entry he
    exact Prod.ext (Extent.eq_of_beq_of_text (filed entry he) text).symm rfl
  have order : Extent.sortOn Prod.fst t.tablets =
      (Tablet.sort (t.tablets.map Prod.snd)).map (List.map fun u => (u.extent, u)) := by
    conv => lhs; rw [entries]
    exact Sorting.sort?_map _ _ _ _
  unfold sorted
  rw [order]
  cases Tablet.sort (t.tablets.map Prod.snd) with
  | error f => rfl
  | ok us =>
    show Except.ok ((us.map fun u => (u.extent, u)).map Prod.snd) = _
    rw [List.map_map]
    exact congrArg Except.ok (List.map_id us)

end ScanPlanner
