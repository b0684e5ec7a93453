import SchemaCatalog.Text.LowerCase

/-!
# Folding names to keys

Catalogs compare names without regard to case: a name is stored under its lower-case form, and every
lookup lower-cases what it is asked for.
-/

namespace SchemaCatalog.Name

/-- The key under which a name is stored. -/
def fold (name : String) : String :=
  String.ofList (Text.lower name.toList)

@[simp] theorem toList_fold (name : String) : (fold name).toList = Text.lower name.toList := by
  simp [fold]

end SchemaCatalog.Name
