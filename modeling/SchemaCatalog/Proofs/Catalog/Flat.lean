import SchemaCatalog.Proofs.Catalog.Operation

/-!
# Flat catalogs

A flat catalog knows no tree: it keeps the resources of each kind in one map from full names, and a
name with full stops is a name like any other.  The operations are those on trees, without places and
without nodes to be made or pruned.
-/

namespace SchemaCatalog

/-- One map for each kind, in the order of the last insertions. -/
structure FlatCatalog where
  resources : (kind : ResourceKind) → Namespace (Resource kind)

namespace FlatCatalog

def empty : FlatCatalog :=
  ⟨fun _ => .empty⟩

/-- Exchanges the map of a kind. -/
def withResources (kind : ResourceKind) (flat : FlatCatalog) (space : Namespace (Resource kind)) :
    FlatCatalog :=
  ⟨fun other => if h : other = kind then h ▸ space else flat.resources other⟩

/-- No segment of a name may be blank. -/
def checkName (name : String) : Except CatalogError Unit :=
  if (Name.segments name).any Text.isBlank then .error (.invalidName name) else .ok ()

def create (mode : CreateMode) (kind : ResourceKind) (name : String) (resource : Resource kind)
    (flat : FlatCatalog) : Except CatalogError (FlatCatalog × Resource kind) := do
  checkName name
  resource.validate kind
  match (flat.resources kind).get? (resource.storageKey kind name), mode with
  | some _, .createDefault => .error (.alreadyExists (.resource kind) name)
  | some existing, .createIfNotExists => .ok (flat, existing)
  -- an insertion drops the entry of the same key and comes last
  | _, _ =>
    .ok (flat.withResources kind
      ((flat.resources kind).insert (resource.storageKey kind name) resource), resource)

/-- Removes the entries of a kind whose keys satisfy a condition; there must be one. -/
def deleteWhere (kind : ResourceKind) (identity name : String) (unwanted : String → Bool)
    (flat : FlatCatalog) : Except CatalogError FlatCatalog := do
  checkName name
  if (flat.resources kind).keys.any unwanted then
    .ok (flat.withResources kind ((flat.resources kind).removeWhere unwanted))
  else
    .error (.notFound kind identity)

def deleteFunctionByFullName (fullName : String) (flat : FlatCatalog) :
    Except CatalogError FlatCatalog :=
  match Name.splitQualified? fullName with
  | none => .error (.invalidName fullName)
  | some (_, name) => flat.deleteWhere .function fullName name (· == Name.fold fullName)

/-- A plain name of a function stands for the functions of all groups. -/
def delete (kind : ResourceKind) (name : String) (flat : FlatCatalog) :
    Except CatalogError FlatCatalog :=
  if kind = .function ∧ ':' ∈ name.toList then flat.deleteFunctionByFullName name
  else flat.deleteWhere kind name name (kind.selects name)

def createAll (mode : CreateMode) :
    List NamedResource → FlatCatalog → Except CatalogError FlatCatalog
  | [], flat => .ok flat
  | ⟨kind, name, resource⟩ :: rest, flat =>
    match flat.create mode kind name resource with
    | .ok (flat, _) => createAll mode rest flat
    | .error error => .error error

def applyDefinitions (mode : CreateMode) (definitions : Definitions) (flat : FlatCatalog) :
    Except CatalogError FlatCatalog :=
  match definitions.resources with
  | .ok resources => flat.createAll mode resources
  | .error error => .error (.typeParse error)

def run (flat : FlatCatalog) : Operation → Except CatalogError (FlatCatalog × Reply)
  | .create mode kind name resource =>
    (flat.create mode kind name resource).map fun (created, stored) =>
      (created, .stored kind stored)
  | .delete kind name => (flat.delete kind name).map (·, .done)
  | .deleteFunctionByFullName fullName =>
    (flat.deleteFunctionByFullName fullName).map (·, .done)
  | .applyDefinitions mode definitions => (flat.applyDefinitions mode definitions).map (·, .done)

/-- A path means the name that its segments are joined to.  Only the last segment may hold full
stops: the others would be names of sub-catalogs, and these have none. -/
def find (kind : ResourceKind) (path : List String) (flat : FlatCatalog) :
    Except CatalogError (Resource kind) :=
  if path = [] ∨ path.dropLast.any (·.toList.contains '.') then
    .error (.notFound kind (Name.dotted path))
  else
    ((flat.resources kind).find? (kind.selects (Name.dotted path))).elim
      (.error (.notFound kind (Name.dotted path))) .ok

def findFunctionByFullName (fullName : String) (flat : FlatCatalog) :
    Except CatalogError SqlFunction :=
  match (flat.resources .function).get? fullName with
  | some function => .ok function
  | none => .error (.notFound .function fullName)

theorem resources_withResources (kind : ResourceKind) (flat : FlatCatalog)
    (space : Namespace (Resource kind)) : (flat.withResources kind space).resources kind = space :=
  dif_pos rfl

theorem resources_withResources_of_ne {kind other : ResourceKind} (hne : other ≠ kind)
    (flat : FlatCatalog) (space : Namespace (Resource kind)) :
    (flat.withResources kind space).resources other = flat.resources other :=
  dif_neg hne

end FlatCatalog

/-- Does operations one after the other and collects the outcomes.  One that fails changes nothing. -/
def runAll {σ : Type} (step : σ → Operation → Except CatalogError (σ × Reply)) :
    List Operation → σ → σ × List (Except CatalogError Reply)
  | [], state => (state, [])
  | operation :: rest, state =>
    match step state operation with
    | .ok (next, reply) =>
      ((runAll step rest next).1, .ok reply :: (runAll step rest next).2)
    | .error error =>
      ((runAll step rest state).1, .error error :: (runAll step rest state).2)

end SchemaCatalog
