import SchemaCatalog.Catalog.Basic
import SchemaCatalog.Catalog.Place

/-!
# Creating resources

A create registers a resource at every place of its name.  What happens if one of the places is taken
is up to the mode.  Nothing changes unless the create succeeds.
-/

namespace SchemaCatalog

/-- What to do about a name that is taken: fail, replace what is there, or keep it. -/
inductive CreateMode where
  | createDefault
  | createOrReplace
  | createIfNotExists
deriving DecidableEq, Repr

namespace CreateMode

/-- The spelling in documents. -/
def label : CreateMode → String
  | createDefault => "CreateDefault"
  | createOrReplace => "CreateOrReplace"
  | createIfNotExists => "CreateIfNotExists"

def ofLabel? (text : String) : Option CreateMode :=
  [createDefault, createOrReplace, createIfNotExists].find? fun mode => mode.label == text

end CreateMode

namespace Catalog

/-- The resource stored at a place under the key that a resource would have there. -/
def occupant? (kind : ResourceKind) (resource : Resource kind) (catalog : Catalog) (place : Place) :
    Option (Resource kind) :=
  (catalog.descend? place.catalogs).bind fun node =>
    (node.resources kind).get? (resource.storageKey kind place.name)

/-- Stores a resource at a place, making the nodes that are missing. -/
def register (kind : ResourceKind) (resource : Resource kind) (catalog : Catalog) (place : Place) :
    Catalog :=
  catalog.updateOrCreate
    (fun node => node.withResources kind
      ((node.resources kind).insert (resource.storageKey kind place.name) resource))
    place.catalogs

/-- Registers a resource under a name and gives the resource that is stored then.  An existing one is
the one at the first place that is taken. -/
def create (nested : Bool) (mode : CreateMode) (kind : ResourceKind) (name : String)
    (resource : Resource kind) (catalog : Catalog) :
    Except CatalogError (Catalog × Resource kind) := do
  let places ← Place.ofName nested name
  resource.validate kind
  match places.findSome? (catalog.occupant? kind resource), mode with
  | some _, .createDefault => .error (.alreadyExists (.resource kind) name)
  | some existing, .createIfNotExists => .ok (catalog, existing)
  -- insertion drops what is there under the same key, so replacing needs no step of its own
  | _, _ => .ok (places.foldl (register kind resource) catalog, resource)

end Catalog

end SchemaCatalog
