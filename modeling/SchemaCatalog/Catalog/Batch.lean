import SchemaCatalog.Catalog.Create
import SchemaCatalog.Definition

/-!
# Applying batches of definitions

A batch is applied wholly or not at all: its type expressions are all read first, and the catalog
changes only if every create succeeds.
-/

namespace SchemaCatalog.Catalog

/-- Creates resources one after the other. -/
def createAll (nested : Bool) (mode : CreateMode) :
    List NamedResource → Catalog → Except CatalogError Catalog
  | [], catalog => .ok catalog
  | ⟨kind, name, resource⟩ :: rest, catalog =>
    match catalog.create nested mode kind name resource with
    | .ok (catalog, _) => createAll nested mode rest catalog
    | .error error => .error error

/-- The catalog with all of a batch created in it. -/
def applyDefinitions (nested : Bool) (mode : CreateMode) (definitions : Definitions)
    (catalog : Catalog) : Except CatalogError Catalog :=
  match definitions.resources with
  | .ok resources => catalog.createAll nested mode resources
  | .error error => .error (.typeParse error)

end SchemaCatalog.Catalog
