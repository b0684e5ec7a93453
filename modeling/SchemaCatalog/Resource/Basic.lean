import SchemaCatalog.Name.Fold
import SchemaCatalog.Resource.Error
import SchemaCatalog.Resource.Routine
import SchemaCatalog.Resource.Table

/-!
# Resources by kind

What the operations on catalogs need to know of a resource, one rule for each kind: the name that it
carries, whether it may be stored, the key under which a name stores it, and which stored keys a
plain name stands for.  Functions differ from the rest in being stored with their group, while a
plain name stands for all groups.
-/

namespace SchemaCatalog

/-- The resources of a kind. -/
abbrev Resource : ResourceKind → Type
  | .table => Table
  | .function => SqlFunction
  | .procedure => Procedure
  | .tableFunction => TableFunction

namespace Resource

instance decEq : (kind : ResourceKind) → DecidableEq (Resource kind)
  | .table => inferInstanceAs (DecidableEq Table)
  | .function => inferInstanceAs (DecidableEq SqlFunction)
  | .procedure => inferInstanceAs (DecidableEq Procedure)
  | .tableFunction => inferInstanceAs (DecidableEq TableFunction)

/-- The name that a resource carries itself. -/
def defaultName : (kind : ResourceKind) → Resource kind → String
  | .table, table => table.name
  | .function, function => SqlFunction.name function
  | .procedure, procedure => Procedure.name procedure
  | .tableFunction, function => TableFunction.name function

/-- A function needs a group that is not blank and holds no colon; other resources are always
storable. -/
def validate : (kind : ResourceKind) → Resource kind → Except CatalogError Unit
  | .function, function =>
    if Text.isBlank function.group || function.group.toList.contains ':' then
      .error (.invalidName function.group)
    else .ok ()
  | _, _ => .ok ()

/-- The key, before folding, under which a name stores the resource. -/
def storageKey : (kind : ResourceKind) → Resource kind → String → String
  | .function, function, name => Name.qualify function.group name
  | _, _, name => name

end Resource

namespace ResourceKind

/-- Whether a stored key is one that a plain name stands for. -/
def selects : ResourceKind → String → String → Bool
  | function, name, key => (Name.splitQualified? key).map (·.2) == some (Name.fold name)
  | _, name, key => key == Name.fold name

end ResourceKind

end SchemaCatalog
