import SchemaCatalog.Catalog.Basic

/-!
# Workspaces

Several clients may hold one catalog, each under a name of its own: a change that one makes is seen
by all of them.  A workspace is the catalogs that are held and which of them each name means.
-/

namespace SchemaCatalog

/-- The catalogs that are held, and for each name the position of the one it means.  A name that is
assigned again hides its earlier meaning. -/
structure Workspace where
  catalogs : List Catalog
  names : List (String × Nat)

namespace Workspace

/-- A workspace in which one name means a catalog. -/
def single (name : String) (catalog : Catalog) : Workspace :=
  ⟨[catalog], [(name, 0)]⟩

/-- The catalog that a name means. -/
def catalog? (workspace : Workspace) (name : String) : Option Catalog :=
  (workspace.names.lookup name).bind fun position => workspace.catalogs[position]?

/-- Lets a name mean a catalog of its own from now on. -/
def assign (workspace : Workspace) (name : String) (catalog : Catalog) : Workspace :=
  ⟨workspace.catalogs ++ [catalog], (name, workspace.catalogs.length) :: workspace.names⟩

/-- Lets a name mean the same catalog as another one. -/
def share (workspace : Workspace) (source name : String) : Workspace :=
  match workspace.names.lookup source with
  | some position => { workspace with names := (name, position) :: workspace.names }
  | none => workspace

/-- Changes the catalog that a name means, for all names that mean it. -/
def update (workspace : Workspace) (name : String) (catalog : Catalog) : Workspace :=
  match workspace.names.lookup name with
  | some position => { workspace with catalogs := workspace.catalogs.set position catalog }
  | none => workspace

/-- The names in use, each once. -/
def slots (workspace : Workspace) : List String :=
  (workspace.names.map (·.1)).eraseDups

end Workspace

end SchemaCatalog
