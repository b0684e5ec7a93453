/-!
# Names qualified by a group

A function is stored under its group and its name, written `group:name`.  A group holds no colon, so
the first colon is the one between them.
-/

namespace SchemaCatalog.Name

/-- A name within a group. -/
def qualify (group name : String) : String :=
  group ++ ":" ++ name

/-- The text before the first colon and the text after it. -/
def splitQualified? (name : String) : Option (String × String) :=
  match name.toList.dropWhile (· != ':') with
  | [] => none
  | _ :: rest => some (String.ofList (name.toList.takeWhile (· != ':')), String.ofList rest)

/-- A group that holds no colon can be read off a qualified name. -/
theorem splitQualified?_qualify {group : String} (hgroup : ':' ∉ group.toList) (name : String) :
    splitQualified? (qualify group name) = some (group, name) := by
  have hall : ∀ c ∈ group.toList, (c != ':') = true := by
    intro c hc
    have hne : c ≠ ':' := fun h => hgroup (h ▸ hc)
    simpa using hne
  have htext : (qualify group name).toList = group.toList ++ ':' :: name.toList := by
    simp [qualify]
  rw [splitQualified?, htext, List.dropWhile_append_of_pos hall, List.takeWhile_append_of_pos hall]
  simp

end SchemaCatalog.Name
