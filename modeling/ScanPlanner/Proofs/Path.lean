import ScanPlanner.Proofs.Segment
import ScanPlanner.Service.Address

/-!
# Paths of resources

Different names have different paths, and so have different ids, as long as they are texts without
halves of characters (`ResourcePath.tableByName_inj` and its like); no path leads to resources of
two sorts. In every path one segment stands for the name or the id, and it can be cut out and read
(`ResourcePath.paths_apart`).
-/

namespace ScanPlanner

namespace ResourcePath

variable {s t : String}

theorem tableByName_inj (hs : Text.isWhole s = true) (ht : Text.isWhole t = true)
    (h : tableByName s = tableByName t) : s = t :=
  Text.percentEncode_inj hs ht ((String.append_right_inj _).mp h)

theorem tableById_inj (hs : Text.isWhole s = true) (ht : Text.isWhole t = true)
    (h : tableById s = tableById t) : s = t :=
  Text.percentEncode_inj hs ht ((String.append_right_inj _).mp h)

theorem tablets_inj (hs : Text.isWhole s = true) (ht : Text.isWhole t = true)
    (h : tablets s = tablets t) : s = t :=
  tableById_inj hs ht ((String.append_left_inj _).mp h)

/-- The first segments differ: what follows them does not matter. -/
theorem tables_append_ne (s t : String) : "/v1/tables/" ++ s ≠ "/v1/table-ids/" ++ t := by
  intro h
  have differ := congrArg (fun path => path.toList[9]?) h
  rw [String.toList_append, String.toList_append] at differ
  exact absurd differ (by simp)

/-- No path to a name is one to an id, because their second parts differ. -/
theorem tableByName_ne_tableById (s t : String) : tableByName s ≠ tableById t :=
  tables_append_ne _ _

theorem tableByName_ne_tablets (s t : String) : tableByName s ≠ tablets t := by
  unfold tablets tableById
  rw [String.append_assoc]
  exact tables_append_ne _ _

/-- The path of tablets has one segment more, and a segment has no slash, so the two are never the
same path. -/
theorem tableById_ne_tablets (s t : String) : tableById s ≠ tablets t := by
  intro h
  unfold tablets tableById at h
  rw [String.append_assoc, String.append_right_inj] at h
  have longer : '/' ∈ (Text.percentEncode s).toList := by
    rw [h, String.toList_append]
    exact List.mem_append_right _ (by decide)
  exact Text.not_mem_percentEncode (by decide) (by decide) s longer

/-! ## The segment of a name -/

/-- A segment that stands for a text: no further segment, query or fragment begins in it, and it is
read as the text. -/
structure StandsFor (segment text : String) : Prop where
  slash : '/' ∉ segment.toList
  query : '?' ∉ segment.toList
  fragment : '#' ∉ segment.toList
  decoded : Text.percentDecode? segment = some text

/-- A written segment stands for its text and for no other one, and has no slash in it that would
end it. -/
theorem standsFor_percentEncode (h : Text.isWhole s = true) :
    StandsFor (Text.percentEncode s) s where
  slash := Text.not_mem_percentEncode (by decide) (by decide) s
  query := Text.not_mem_percentEncode (by decide) (by decide) s
  fragment := Text.not_mem_percentEncode (by decide) (by decide) s
  decoded := Text.percentDecode?_percentEncode h

/-- Every path leads to one resource: the paths of two texts are equal just if the texts are, and
the three sorts of paths have none in common. What stands in a path for its text is one segment,
from which the text can be read. -/
theorem paths_apart (hs : Text.isWhole s = true) (ht : Text.isWhole t = true) :
    ((tableByName s = tableByName t ↔ s = t) ∧ (tableById s = tableById t ↔ s = t) ∧
      (tablets s = tablets t ↔ s = t)) ∧
    (tableByName s ≠ tableById t ∧ tableByName s ≠ tablets t ∧ tableById s ≠ tablets t) ∧
    ∃ segment, StandsFor segment s ∧ tableByName s = "/v1/tables/" ++ segment ∧
      tableById s = "/v1/table-ids/" ++ segment ∧
      tablets s = "/v1/table-ids/" ++ segment ++ "/tablets" := by
  refine ⟨⟨?_, ?_, ?_⟩, ⟨?_, ?_, ?_⟩, ?_⟩
  · exact ⟨tableByName_inj hs ht, congrArg tableByName⟩
  · exact ⟨tableById_inj hs ht, congrArg tableById⟩
  · exact ⟨tablets_inj hs ht, congrArg tablets⟩
  · exact tableByName_ne_tableById s t
  · exact tableByName_ne_tablets s t
  · exact tableById_ne_tablets s t
  · exact ⟨Text.percentEncode s, standsFor_percentEncode hs, rfl, rfl, rfl⟩

/-- A name that is written as another one is called has a path of its own: the percent signs of the
latter are escaped once more. -/
theorem paths_apart_escaped :
    Text.isWhole "ü/tablets" = true ∧ Text.isWhole "%C3%BC%2Ftablets" = true ∧
      Text.percentEncode "ü/tablets" = "%C3%BC%2Ftablets" ∧
      tableByName "ü/tablets" ≠ tableByName "%C3%BC%2Ftablets" ∧
      ∃ segment, StandsFor segment "ü/tablets" ∧
        tablets "ü/tablets" = "/v1/table-ids/" ++ segment ++ "/tablets" := by
  have hs : Text.isWhole "ü/tablets" = true := by decide
  have ht : Text.isWhole "%C3%BC%2Ftablets" = true := by decide
  obtain ⟨⟨same, -, -⟩, -, segment, stands, -, -, path⟩ := paths_apart hs ht
  refine ⟨hs, ht, by decide +kernel, ?_, segment, stands, path⟩
  intro e
  exact absurd (same.mp e) (by decide)

end ResourcePath

end ScanPlanner
