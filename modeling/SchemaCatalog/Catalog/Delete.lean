import SchemaCatalog.Catalog.Basic
import SchemaCatalog.Catalog.Place

/-!
# Deleting resources

A delete removes what a name stands for from every place of the name, and then the nodes that were
made for such names and are empty now, innermost first.  It fails if there is nothing to remove.
-/

namespace SchemaCatalog.Catalog

/-- A choice of stored keys for a name. -/
abbrev Selection := String → String → Bool

/-- Some stored key at a place is among those chosen for the place's name. -/
def holdsAt (kind : ResourceKind) (selects : Selection) (catalog : Catalog) (place : Place) : Bool :=
  match catalog.descend? place.catalogs with
  | some node => (node.resources kind).keys.any (selects place.name)
  | none => false

/-- Removes what is stored at a place under the keys chosen for the place's name. -/
def unregister (kind : ResourceKind) (selects : Selection) (catalog : Catalog) (place : Place) :
    Catalog :=
  catalog.updateAt
    (fun node => node.withResources kind
      ((node.resources kind).removeWhere (selects place.name)))
    place.catalogs

/-- Prunes the sub-catalogs of the places, the longest chains first. -/
def prunePlaces (places : List Place) (catalog : Catalog) : Catalog :=
  places.reverse.foldl (fun catalog place => (catalog.prune place.catalogs).1) catalog

/-- Removes the chosen keys at every place of a name.  `identity` is what the caller calls the
resource. -/
def deleteSelected (nested : Bool) (kind : ResourceKind) (identity name : String)
    (selects : Selection) (catalog : Catalog) : Except CatalogError Catalog := do
  let places ← Place.ofName nested name
  -- one place that holds something is enough; the others may lack it
  if places.any (catalog.holdsAt kind selects) then
    .ok (prunePlaces places (places.foldl (unregister kind selects) catalog))
  else
    .error (.notFound kind identity)

/-- Deletes all that a plain name stands for; for functions that is every group. -/
def deleteNamed (nested : Bool) (kind : ResourceKind) (name : String) (catalog : Catalog) :
    Except CatalogError Catalog :=
  catalog.deleteSelected nested kind name name kind.selects

/-- Deletes the function of one group, given as `group:name`. -/
def deleteFunctionByFullName (nested : Bool) (fullName : String) (catalog : Catalog) :
    Except CatalogError Catalog :=
  match Name.splitQualified? fullName with
  | none => .error (.invalidName fullName)
  | some (group, name) =>
    catalog.deleteSelected nested .function fullName name fun placeName key =>
      key == Name.fold (Name.qualify group placeName)

/-- Deletes a resource by name.  The name of a function is a full name if it holds a colon. -/
def delete (nested : Bool) (kind : ResourceKind) (name : String) (catalog : Catalog) :
    Except CatalogError Catalog :=
  if kind = .function ∧ ':' ∈ name.toList then catalog.deleteFunctionByFullName nested name
  else catalog.deleteNamed nested kind name

end SchemaCatalog.Catalog
