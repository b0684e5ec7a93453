import SchemaCatalog.Catalog.Basic

/-!
# Finding resources

A path names sub-catalogs and, last, a resource in the innermost.
-/

namespace SchemaCatalog.Catalog

/-- The resource at the end of a path. -/
def find (kind : ResourceKind) (path : List String) (catalog : Catalog) :
    Except CatalogError (Resource kind) :=
  match path.getLast?, catalog.descend? path.dropLast with
  | some name, some node =>
    match node.get? kind name with
    | some resource => .ok resource
    | none => .error (.notFound kind (Name.dotted path))
  | _, _ => .error (.notFound kind (Name.dotted path))

/-- The function with this group-qualified name, at the root. -/
def findFunctionByFullName (fullName : String) (catalog : Catalog) :
    Except CatalogError SqlFunction :=
  match catalog.functionByFullName? fullName with
  | some function => .ok function
  | none => .error (.notFound .function fullName)

end SchemaCatalog.Catalog
