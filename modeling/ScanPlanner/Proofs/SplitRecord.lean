import ScanPlanner.Proofs.Covering
import ScanPlanner.Proofs.TabletRecord
import ScanPlanner.Scan.Split

/-!
# Splits as records

A split is read back from its record exactly as it was written (`Split.ofJson_toJson`), and so is
every part of it: what has not been captured stays null, and what is empty stays empty. Only the
ranges need a condition, and just those meet it that can be made (`KeyRange.told_iff_exists_make`):
it can be told which of their ends comes first. What sort the keys are of does not matter.

A record may be shorter than a written one, and say things in other ways. Whatever split is read
from it, that split is read back (`Split.reads_back`). -/

namespace ScanPlanner

/-! ## Lists -/

/-- Items that are read back one by one are read back as a list. -/
theorem Result.mapM_map_of_forall {α β : Type} {write : α → β} {read : β → Result α} {xs : List α}
    (each : ∀ x ∈ xs, read (write x) = .ok x) : (xs.map write).mapM read = .ok xs := by
  induction xs with
  | nil => rfl
  | cons x xs ih =>
    obtain ⟨first, rest⟩ := List.forall_mem_cons.mp each
    rw [List.map_cons, List.mapM_cons, first, Result.bind_ok, ih rest]
    rfl

theorem Json.itemsOrNone_list (items : List Json) : (Json.list items).itemsOrNone = .ok items := by
  cases items <;> rfl

/-! ## Ranges -/

namespace KeyRange

/-- A range is read back from its record, with its keys and with what it says about its ends. The
condition is that its ends can be compared, which every range that was made satisfies. -/
theorem ofJson_toJson {r : KeyRange} (told : r.Told) : ofJson r.toJson = .ok r := by
  have ends (e : Option Edge) : (e.map Edge.key).map (⟨·, flag e⟩) = e := by cases e <;> rfl
  show (do
    let start ← RowKey.ofJson (RowKey.toJson (r.lower.map Edge.key))
    let last ← RowKey.ofJson (RowKey.toJson (r.upper.map Edge.key))
    make (start.map (⟨·, flag r.lower⟩)) (last.map (⟨·, flag r.upper⟩))) = _
  rw [RowKey.ofJson_toJson, RowKey.ofJson_toJson, Result.bind_ok, Result.bind_ok, ends, ends]
  exact make_eq_ok_iff.mpr ⟨told, rfl, rfl⟩

/-- The ranges that can be made are those of whose ends it can be told which comes first. -/
theorem told_iff_exists_make {r : KeyRange} : r.Told ↔ ∃ lower upper, make lower upper = .ok r :=
  ⟨fun told => ⟨_, _, make_eq_ok_iff.mpr ⟨told, rfl, rfl⟩⟩,
    fun ⟨_, _, h⟩ => (make_eq_ok_iff.mp h).1⟩

/-- A range that was read has ends of which it can be told which comes first. -/
theorem told_of_ofJson {v : Json} {r : KeyRange} (h : ofJson v = .ok r) : r.Told := by
  unfold ofJson at h
  repeat
    obtain ⟨_, -, h⟩ := Result.bind_eq_ok.mp h
  exact (make_eq_ok_iff.mp h).1

end KeyRange

/-! ## Columns, iterators and snapshots -/

theorem Column.ofJson_toJson (c : Column) : ofJson c.toJson = .ok c := rfl

theorem IteratorSetting.ofJson_toJson (i : IteratorSetting) : ofJson i.toJson = .ok i := rfl

namespace Snapshot

/-- A list that was not captured is not mistaken for an empty one: the former is written as null. -/
theorem listOrNull_listToJson {α : Type} {write : α → Json} {read : Json → Result α}
    (each : ∀ x, read (write x) = .ok x) (items : Option (List α)) :
    listOrNull read (listToJson write items) = .ok items := by
  cases items with
  | none => rfl
  | some items =>
    show ((items.map write).mapM read >>= fun items => pure (some items)) = _
    rw [Result.mapM_map_of_forall fun x _ => each x]
    rfl

theorem ofJson_toJson (s : Snapshot) : ofJson s.toJson = .ok s := by
  have same (v : Json) : (.ok (id v) : Result Json) = .ok v := rfl
  show (do
    let iterators ← listOrNull IteratorSetting.ofJson
      (listToJson IteratorSetting.toJson s.iterators)
    let columns ← listOrNull Column.ofJson (listToJson Column.toJson s.columns)
    let authorizations ← listOrNull .ok (listToJson id s.authorizations)
    return { s with iterators, columns, authorizations }) = _
  rw [listOrNull_listToJson IteratorSetting.ofJson_toJson,
    listOrNull_listToJson Column.ofJson_toJson, listOrNull_listToJson same]
  rfl

end Snapshot

/-! ## Splits -/

/-- The work of a split is told by its kind and its ranges. -/
theorem Work.ofKind_kind (w : Work) : ofKind (.text w.kind) w.ranges = .ok w := by
  unfold ofKind
  cases w with
  | single range => exact if_pos rfl
  | batch ranges =>
    rw [if_neg (by simp [kind])]
    exact if_pos rfl

/-- Work that is made of ranges has these ranges. -/
theorem Work.ranges_of_ofKind {kind : Json} {ranges : List KeyRange} {w : Work}
    (h : ofKind kind ranges = .ok w) : w.ranges = ranges := by
  unfold ofKind at h
  split at h
  · split at h
    · cases h
      rfl
    · cases h
  · split at h
    · cases h
      rfl
    · cases h

/-- A split is read back from its record, field by field. Only its ranges need a condition. -/
theorem Split.ofJson_toJson {s : Split} (told : ∀ r ∈ s.ranges, r.Told) :
    ofJson s.toJson = .ok s := by
  show (do
    let ranges ← (← (Json.list (s.ranges.map KeyRange.toJson)).itemsOrNone).mapM KeyRange.ofJson
    let locations ← (Json.list s.locations).itemsOrNone
    let snapshot ← Snapshot.ofJson s.snapshot.toJson
    let work ← Work.ofKind (.text s.work.kind) ranges
    return { s with locations, snapshot, work }) = _
  have read : (s.ranges.map KeyRange.toJson).mapM KeyRange.ofJson = .ok s.ranges :=
    Result.mapM_map_of_forall fun r hr => KeyRange.ofJson_toJson (told r hr)
  have work : Work.ofKind (.text s.work.kind) s.ranges = .ok s.work := s.work.ofKind_kind
  simp only [Json.itemsOrNone_list, Result.bind_ok, read, Snapshot.ofJson_toJson, work]
  rfl

/-- However lenient the record is that a split is read from, its ranges have been made, so they can
be written and read again. -/
theorem Split.told_of_ofJson {v : Json} {s : Split} (h : ofJson v = .ok s) :
    ∀ r ∈ s.ranges, r.Told := by
  unfold ofJson at h
  obtain ⟨kind, -, h⟩ := Result.bind_eq_ok.mp h
  obtain ⟨records, -, h⟩ := Result.bind_eq_ok.mp h
  obtain ⟨ranges, made, h⟩ := Result.bind_eq_ok.mp h
  obtain ⟨tableName, -, h⟩ := Result.bind_eq_ok.mp h
  obtain ⟨tableId, -, h⟩ := Result.bind_eq_ok.mp h
  obtain ⟨locations, -, h⟩ := Result.bind_eq_ok.mp h
  obtain ⟨captured, -, h⟩ := Result.bind_eq_ok.mp h
  obtain ⟨snapshot, -, h⟩ := Result.bind_eq_ok.mp h
  obtain ⟨work, ofKind, h⟩ := Result.bind_eq_ok.mp h
  cases h
  intro r (hr : r ∈ work.ranges)
  -- the kind of the split says how its ranges are grouped, not which they are
  rw [Work.ranges_of_ofKind ofKind] at hr
  obtain ⟨_, -, read⟩ := Result.exists_of_mapM_of_mem made hr
  exact KeyRange.told_of_ofJson read

/-- Just those splits are read back from their records, with all that they hold, whose ranges can be
made; and a split that was read from any record is one of them, so to write it and to read it again
changes nothing. -/
theorem Split.reads_back (s : Split) :
    (ofJson s.toJson = .ok s ↔ ∀ r ∈ s.ranges, ∃ lower upper, KeyRange.make lower upper = .ok r) ∧
      ∀ v, ofJson v = .ok s → ofJson s.toJson = .ok s := by
  refine ⟨⟨fun h r hr => ?_, fun made => ?_⟩, fun v h => ?_⟩
  · exact KeyRange.told_iff_exists_make.mp (told_of_ofJson h r hr)
  · exact ofJson_toJson fun r hr => KeyRange.told_iff_exists_make.mpr (made r hr)
  · exact ofJson_toJson (told_of_ofJson h)

/-- A record that leaves much out, and says the rest in other ways than a written one does. The keys
of its ranges are a text, numbers with a fraction, a truth value and lists. -/
def Split.tersely : Json := .object [("tableId", .int 1), ("tableName", .text "t"),
  ("kind", .text "batch"), ("locations", .text "ab"),
  ("ranges", .list [.object [("start", .text "a"), ("startInclusive", .null)], .object [],
    .object [("start", .real (.finite false 3 (-1))), ("end", .real (.finite false 5 (-1)))],
    .object [("end", .bool true)],
    .object [("start", .list [.int 1]), ("end", .list [.int 1, .text "x"])]]),
  ("snapshot", .object [("fetchedColumns", .list []), ("offline", .int 0), ("iterators", .list [
    .object [("priority", .text " 7 "), ("name", .text "i"), ("iteratorClass", .null),
      ("properties", .list [.list [.text "k", .int 1], .list [.int 2, .null]])]])])]

/-- The ranges of the record. -/
def Split.terseRanges : List KeyRange :=
  [⟨some ⟨.text "a", .null⟩, none, trivial⟩, .everything,
    ⟨some ⟨⟨.real (.finite false 3 (-1)), nofun, rfl⟩, .bool true⟩,
      some ⟨⟨.real (.finite false 5 (-1)), nofun, rfl⟩, .bool true⟩, by decide +kernel⟩,
    ⟨none, some ⟨.number 1, .bool true⟩, trivial⟩,
    ⟨some ⟨⟨.list [.int 1], nofun, rfl⟩, .bool true⟩,
      some ⟨⟨.list [.int 1, .text "x"], nofun, rfl⟩, .bool true⟩, by decide +kernel⟩]

/-- What is read from it is read back. -/
theorem Split.reads_back_tersely : ∃ s, ofJson tersely = .ok s ∧ ofJson s.toJson = .ok s ∧
    s.toJson ≠ tersely := by
  have read : ofJson tersely = .ok ⟨.text "t", .int 1, [.text "a", .text "b"],
      ⟨.int 0, .null, .null, some [⟨7, .text "i", .null, [("k", .int 1), ("2", .null)]⟩], some [],
        none⟩, .batch terseRanges⟩ := by decide +kernel
  exact ⟨_, read, (reads_back _).2 _ read, by decide⟩

end ScanPlanner
