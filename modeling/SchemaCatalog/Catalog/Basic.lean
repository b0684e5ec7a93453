import SchemaCatalog.Catalog.Namespace
import SchemaCatalog.Resource.Basic

/-!
# Catalogs

A catalog is a tree.  Each node has a name, a namespace for every kind of resource, and sub-catalogs
under their folded names.  A node is implicit if it was made only to hold a dotted name; such nodes
go away again when they are empty.
-/

namespace SchemaCatalog

/-- A node of the catalog tree with all that is below it. -/
structure Catalog where
  name : String
  implicit : Bool
  tables : Namespace Table
  functions : Namespace SqlFunction
  procedures : Namespace Procedure
  tableFunctions : Namespace TableFunction
  catalogs : Namespace Catalog

namespace Catalog

/-- An empty catalog that the caller makes. -/
def new (name : String) : Catalog :=
  ⟨name, false, .empty, .empty, .empty, .empty, .empty⟩

/-- The name of a catalog that the caller leaves unnamed. -/
def defaultName : String := "catalog"

/-- An empty node made on demand. -/
def newImplicit (name : String) : Catalog :=
  { new name with implicit := true }

/-- The namespace of a kind. -/
def resources : (kind : ResourceKind) → Catalog → Namespace (Resource kind)
  | .table, catalog => catalog.tables
  | .function, catalog => catalog.functions
  | .procedure, catalog => catalog.procedures
  | .tableFunction, catalog => catalog.tableFunctions

/-- Exchanges the namespace of a kind. -/
def withResources : (kind : ResourceKind) → Catalog → Namespace (Resource kind) → Catalog
  | .table, catalog, space => { catalog with tables := space }
  | .function, catalog, space => { catalog with functions := space }
  | .procedure, catalog, space => { catalog with procedures := space }
  | .tableFunction, catalog, space => { catalog with tableFunctions := space }

@[simp] theorem resources_withResources (kind : ResourceKind) (catalog : Catalog)
    (space : Namespace (Resource kind)) :
    (catalog.withResources kind space).resources kind = space := by
  cases kind <;> rfl

@[simp] theorem withResources_resources (kind : ResourceKind) (catalog : Catalog) :
    catalog.withResources kind (catalog.resources kind) = catalog := by
  cases catalog
  cases kind <;> rfl

@[simp] theorem withResources_withResources (kind : ResourceKind) (catalog : Catalog)
    (first second : Namespace (Resource kind)) :
    (catalog.withResources kind first).withResources kind second =
      catalog.withResources kind second := by
  cases kind <;> rfl

/-- A node is empty if it holds no resources and no sub-catalogs. -/
def isEmpty (catalog : Catalog) : Bool :=
  catalog.tables.isEmpty && catalog.functions.isEmpty && catalog.procedures.isEmpty &&
    catalog.tableFunctions.isEmpty && catalog.catalogs.isEmpty

/-! ## Resources of one node -/

/-- The first resource that a plain name stands for. -/
def get? (kind : ResourceKind) (catalog : Catalog) (name : String) : Option (Resource kind) :=
  (catalog.resources kind).find? (kind.selects name)

/-- The function with this group-qualified name. -/
def functionByFullName? (catalog : Catalog) (fullName : String) : Option SqlFunction :=
  catalog.functions.get? fullName

/-- Stores a resource under the name that it carries; the name must be free. -/
def add (kind : ResourceKind) (catalog : Catalog) (resource : Resource kind) :
    Except CatalogError Catalog := do
  Resource.validate kind resource
  let key := resource.storageKey kind (resource.defaultName kind)
  if (catalog.resources kind).contains key then
    .error (.alreadyExists (.resource kind) key)
  else
    .ok (catalog.withResources kind ((catalog.resources kind).insert key resource))

/-- The resources that a plain name stands for. -/
def named (kind : ResourceKind) (catalog : Catalog) (name : String) : List (Resource kind) :=
  (catalog.resources kind).select (kind.selects name)

/-- Removes the resources that a plain name stands for. -/
def remove (kind : ResourceKind) (catalog : Catalog) (name : String) : Catalog :=
  catalog.withResources kind ((catalog.resources kind).removeWhere (kind.selects name))

/-! ## Sub-catalogs of one node -/

def subCatalog? (catalog : Catalog) (name : String) : Option Catalog :=
  catalog.catalogs.get? name

/-- Adds a whole catalog under its own name; the name must be free. -/
def addSubCatalog (catalog sub : Catalog) : Except CatalogError Catalog :=
  if catalog.catalogs.contains sub.name then .error (.alreadyExists .catalog sub.name)
  else .ok { catalog with catalogs := catalog.catalogs.insert sub.name sub }

/-- Makes sure that there is a sub-catalog of this name; a new one is the caller's. -/
def ensureSubCatalog (catalog : Catalog) (name : String) : Catalog :=
  if catalog.catalogs.contains name then catalog
  else { catalog with catalogs := catalog.catalogs.insert name (new name) }

def removeSubCatalog (catalog : Catalog) (name : String) : Catalog :=
  { catalog with catalogs := catalog.catalogs.erase name }

/-! ## Paths -/

/-- The node at the end of a path of names. -/
def descend? : List String → Catalog → Option Catalog
  | [], catalog => some catalog
  | name :: path, catalog =>
    match catalog.subCatalog? name with
    | some sub => descend? path sub
    | none => none

/-- Changes the node at the end of a path, if it is there. -/
def updateAt (change : Catalog → Catalog) : List String → Catalog → Catalog
  | [], catalog => change catalog
  | name :: path, catalog =>
    match catalog.subCatalog? name with
    | some sub =>
      { catalog with catalogs := catalog.catalogs.replace name (updateAt change path sub) }
    | none => catalog

/-- Changes the node at the end of a path.  Missing nodes are made on demand: each is implicit, comes
last among its siblings and is named as the path writes it. -/
def updateOrCreate (change : Catalog → Catalog) : List String → Catalog → Catalog
  | [], catalog => change catalog
  | name :: path, catalog =>
    match catalog.subCatalog? name with
    | some sub =>
      { catalog with catalogs := catalog.catalogs.replace name (updateOrCreate change path sub) }
    | none =>
      { catalog with
        catalogs := catalog.catalogs.insert name (updateOrCreate change path (newImplicit name)) }

/-- Makes sure that a path of nodes is there. -/
def ensurePath (path : List String) (catalog : Catalog) : Catalog :=
  updateOrCreate id path catalog

/-- Removes the nodes at the end of a path that are implicit and empty, from the last one upwards, and
counts them.  A path with a missing node is left alone. -/
def prune : List String → Catalog → Catalog × Nat
  | [], catalog => (catalog, 0)
  | name :: path, catalog =>
    match catalog.subCatalog? name with
    | none => (catalog, 0)
    | some sub =>
      let (sub, count) := prune path sub
      -- this node may go only if every node below it on the path went
      if count = path.length && sub.implicit && sub.isEmpty then
        (catalog.removeSubCatalog name, count + 1)
      else ({ catalog with catalogs := catalog.catalogs.replace name sub }, count)

end Catalog

end SchemaCatalog
