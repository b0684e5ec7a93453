/-!
# Dotted names

A dotted name such as `project.dataset.table` is a list of segments.  Splitting at the full stops and
joining with full stops are inverse to each other on segments that hold none.
-/

namespace SchemaCatalog.Name

/-- The segments of a dotted name; there is always at least one, and segments may be empty. -/
def segments (name : String) : List String :=
  (name.toList.splitOn '.').map String.ofList

/-- The name with these segments. -/
def dotted (segments : List String) : String :=
  ".".intercalate segments

theorem dotted_singleton (name : String) : dotted [name] = name :=
  String.intercalate_singleton

theorem segments_ne_nil (name : String) : segments name ≠ [] := by
  simp [segments, List.splitOn_ne_nil]

/-- Joining the segments gives the name back. -/
@[simp] theorem dotted_segments (name : String) : dotted (segments name) = name := by
  apply String.toList_injective
  simp [dotted, segments, Function.comp_def, List.intercalate_splitOn]

/-- Splitting gives back segments that hold no full stop. -/
theorem segments_dotted {parts : List String} (hne : parts ≠ [])
    (hdot : ∀ part ∈ parts, '.' ∉ part.toList) : segments (dotted parts) = parts := by
  have hsplit : (['.'].intercalate (parts.map String.toList)).splitOn '.' =
      parts.map String.toList :=
    List.splitOn_intercalate '.' (by simpa using hdot) (by simpa using hne)
  simp only [segments, dotted, String.toList_intercalate]
  rw [show ".".toList = ['.'] from rfl, hsplit]
  simp [Function.comp_def]

end SchemaCatalog.Name
