import SchemaCatalog.Proofs.Catalog.Key
import SchemaCatalog.Proofs.Catalog.Operation
import SchemaCatalog.Proofs.Name.Spelling

/-!
# Names with the same key

A catalog stores nothing of a name but its keys at its places; only the nodes that are made on demand
keep their names as they were written.  So names with the same keys at all places may be exchanged in
every create and delete.  Names that are alike have the same keys, but names that only have the same
key as a whole may not: the form of a sigma depends on what follows the full stop after it.
-/

namespace SchemaCatalog

/-- The error without the names that it quotes. -/
def CatalogError.unquoted : CatalogError → CatalogError
  | alreadyExists subject _ => alreadyExists subject ""
  | notFound kind _ => notFound kind ""
  | invalidName _ => invalidName ""
  | typeParse error => typeParse error

namespace Catalog

variable {kind : ResourceKind}

/-! ## Trees up to the names of their nodes -/

mutual

/-- The tree with the names of its nodes left out. -/
def unnamed : Catalog → Catalog
  | ⟨_, implicit, tables, functions, procedures, tableFunctions, ⟨entries⟩⟩ =>
    ⟨"", implicit, tables, functions, procedures, tableFunctions, ⟨unnamedEntries entries⟩⟩

def unnamedEntries : List (String × Catalog) → List (String × Catalog)
  | [] => []
  | (key, sub) :: rest => (key, unnamed sub) :: unnamedEntries rest

end

theorem unnamedEntries_eq_map (entries : List (String × Catalog)) :
    unnamedEntries entries = entries.map fun entry => (entry.1, entry.2.unnamed) := by
  induction entries with
  | nil => rw [unnamedEntries, List.map_nil]
  | cons entry rest ih => rw [unnamedEntries, ih, List.map_cons]

theorem unnamed_eq (catalog : Catalog) :
    catalog.unnamed = { catalog with name := "", catalogs := catalog.catalogs.map unnamed } := by
  cases catalog
  rw [unnamed, unnamedEntries_eq_map]
  rfl

theorem resources_unnamed (kind : ResourceKind) (catalog : Catalog) :
    catalog.unnamed.resources kind = catalog.resources kind := by
  rw [unnamed_eq]
  cases kind <;> rfl

theorem subCatalog?_unnamed (catalog : Catalog) (name : String) :
    catalog.unnamed.subCatalog? name = (catalog.subCatalog? name).map unnamed := by
  rw [unnamed_eq]
  exact Namespace.get?_map catalog.catalogs name

theorem unnamed_withResources (catalog : Catalog) (space : Namespace (Resource kind)) :
    (catalog.withResources kind space).unnamed = catalog.unnamed.withResources kind space := by
  rw [unnamed_eq, unnamed_eq]
  cases kind <;> rfl

theorem unnamed_withCatalogs (catalog : Catalog) (space : Namespace Catalog) :
    ({ catalog with catalogs := space } : Catalog).unnamed =
      { catalog.unnamed with catalogs := space.map unnamed } := by
  rw [unnamed_eq, unnamed_eq]

theorem catalogs_unnamed (catalog : Catalog) :
    catalog.unnamed.catalogs = catalog.catalogs.map unnamed := by
  rw [unnamed_eq]

theorem unnamed_enterOrCreate_congr {catalog other : Catalog}
    (hcatalog : catalog.unnamed = other.unnamed) {segment written : String}
    (hsegment : Name.fold segment = Name.fold written) {change instead : Catalog → Catalog}
    (hchange : ∀ sub changed : Catalog, sub.unnamed = changed.unnamed →
      (change sub).unnamed = (instead changed).unnamed) :
    (catalog.enterOrCreate segment change).unnamed =
      (other.enterOrCreate written instead).unnamed := by
  have hsubs : (catalog.subCatalog? segment).map unnamed =
      (other.subCatalog? written).map unnamed := by
    rw [← subCatalog?_unnamed, ← subCatalog?_unnamed, hcatalog, subCatalog?_congr hsegment]
  unfold enterOrCreate
  cases hsub : catalog.subCatalog? segment with
  | none =>
    rw [hsub, Option.map_none, eq_comm, Option.map_eq_none_iff] at hsubs
    have hnew : (newImplicit segment).unnamed = (newImplicit written).unnamed := by
      rw [unnamed_eq, unnamed_eq]
      rfl
    rw [hsubs]
    simp only [unnamed_withCatalogs, ← Namespace.insert_map, ← catalogs_unnamed, hcatalog,
      hchange _ _ hnew, Namespace.insert_congr hsegment]
  | some sub =>
    rw [hsub, Option.map_some, eq_comm, Option.map_eq_some_iff] at hsubs
    rcases hsubs with ⟨changed, hchanged, hsame⟩
    rw [hchanged]
    simp only [unnamed_withCatalogs, ← Namespace.replace_map, ← catalogs_unnamed, hcatalog,
      hchange _ _ hsame.symm, Namespace.replace_congr hsegment]

/-! ## Chains with the same keys -/

/-- The keys at the places of a name: of the sub-catalogs that lead to a place, and of what `stored`
makes of the name there. -/
def placeKeys (stored : String → String) (segments : List String) : List (List String × String) :=
  (Place.splits segments).map fun place =>
    (place.catalogs.map Name.fold, Name.fold (stored place.name))

theorem placeKeys_cons (stored : String → String) (segment : String) (rest : List String) :
    placeKeys stored (segment :: rest) =
      ([], Name.fold (stored (Name.dotted (segment :: rest)))) ::
        (placeKeys stored rest).map (Prod.map (Name.fold segment :: ·) id) := by
  rw [placeKeys, Place.splits_cons, List.map_cons, List.map_map, placeKeys, List.map_map]
  rfl

theorem placeKeys_singleton (stored : String → String) (name : String) :
    placeKeys stored [name] = [([], Name.fold (stored name))] := by
  rw [placeKeys, Place.splits_singleton]
  rfl

theorem placeKeys_eq_nil_iff {stored : String → String} {segments : List String} :
    placeKeys stored segments = [] ↔ segments = [] := by
  cases segments with
  | nil => exact iff_of_true rfl rfl
  | cons segment rest =>
    rw [placeKeys_cons]
    exact iff_of_false (List.cons_ne_nil _ _) (List.cons_ne_nil _ _)

/-- The chains lead through the same sub-catalogs, and the names at their places agree. -/
inductive SameChain (agree : String → String → Prop) : List String → List String → Prop where
  | last {name other : String} (hname : agree name other) : SameChain agree [name] [other]
  | cons {segment written : String} {rest others : List String}
      (hsegment : Name.fold segment = Name.fold written)
      (hname : agree (Name.dotted (segment :: rest)) (Name.dotted (written :: others)))
      (hrest : SameChain agree rest others) : SameChain agree (segment :: rest) (written :: others)

/-- The names have the same key, each as it is stored. -/
def SameKey (stored others : String → String) (name other : String) : Prop :=
  Name.fold (stored name) = Name.fold (others other)

-- One level further down all keys begin with that of the segment, so it can be read off.
theorem placeKeys_eq_of_below_eq {stored others : String → String} {segment other : String}
    {rest written : List String} (hne : rest ≠ [])
    (h : (placeKeys stored rest).map (Prod.map (Name.fold segment :: ·) id) =
      (placeKeys others written).map (Prod.map (Name.fold other :: ·) id)) :
    Name.fold segment = Name.fold other ∧ placeKeys stored rest = placeKeys others written := by
  have hsegment : Name.fold segment = Name.fold other := by
    cases hkeys : placeKeys stored rest with
    | nil => exact absurd (placeKeys_eq_nil_iff.mp hkeys) hne
    | cons keys _ =>
      cases hothers : placeKeys others written with
      | nil =>
        rw [hkeys, hothers] at h
        cases h
      | cons _ _ =>
        rw [hkeys, hothers, List.map_cons, List.map_cons] at h
        injection h with hkeys
        exact (List.cons.inj (Prod.mk.inj hkeys).1).1
  rw [hsegment] at h
  refine ⟨hsegment, (List.map_inj_right fun _ _ hsame => ?_).mp h⟩
  have hparts := Prod.mk.inj hsame
  exact Prod.ext (List.cons.inj hparts.1).2 hparts.2

theorem sameChain_of_placeKeys_eq {stored others : String → String} {segments written : List String}
    (hne : segments ≠ []) (h : placeKeys stored segments = placeKeys others written) :
    SameChain (SameKey stored others) segments written := by
  induction segments generalizing written with
  | nil => exact absurd rfl hne
  | cons segment rest ih =>
    cases written with
    | nil => exact absurd (placeKeys_eq_nil_iff.mp h) hne
    | cons other written =>
      rw [placeKeys_cons, placeKeys_cons] at h
      injection h with hhead htail
      have hname : SameKey stored others (Name.dotted (segment :: rest))
          (Name.dotted (other :: written)) := (Prod.mk.inj hhead).2
      by_cases hlast : rest = []
      · rw [hlast] at hname htail ⊢
        obtain rfl : written = [] := placeKeys_eq_nil_iff.mp (List.map_eq_nil_iff.mp htail.symm)
        rw [Name.dotted_singleton, Name.dotted_singleton] at hname
        exact .last hname
      · rcases placeKeys_eq_of_below_eq hlast htail with ⟨hsegment, hrest⟩
        exact .cons hsegment hname (ih hlast hrest)

theorem SameChain.imp {agree accord : String → String → Prop} {segments others : List String}
    (h : SameChain agree segments others)
    (himp : ∀ {name other : String}, agree name other → accord name other) :
    SameChain accord segments others := by
  induction h with
  | last hname => exact .last (himp hname)
  | cons hsegment hname _ ih => exact .cons hsegment (himp hname) ih

theorem SameChain.ne_nil {agree : String → String → Prop} {segments others : List String}
    (h : SameChain agree segments others) : segments ≠ [] ∧ others ≠ [] := by
  cases h <;> exact ⟨List.cons_ne_nil _ _, List.cons_ne_nil _ _⟩

theorem unnamed_store_congr {resource : Resource kind} {name other : String}
    (hname : SameKey (resource.storageKey kind) (resource.storageKey kind) name other)
    {catalog changed : Catalog} (hcatalog : catalog.unnamed = changed.unnamed) :
    (catalog.store kind resource name).unnamed = (changed.store kind resource other).unnamed := by
  rw [store, store, unnamed_withResources, unnamed_withResources, hcatalog,
    Namespace.insert_congr hname, ← resources_unnamed, hcatalog, resources_unnamed]

theorem unnamed_registerAlong_congr {resource : Resource kind} {segments others : List String}
    (h : SameChain (SameKey (resource.storageKey kind) (resource.storageKey kind)) segments others)
    {catalog changed : Catalog} (hcatalog : catalog.unnamed = changed.unnamed) :
    (catalog.registerAlong kind resource segments).unnamed =
      (changed.registerAlong kind resource others).unnamed := by
  induction h generalizing catalog changed with
  | last hname => exact unnamed_store_congr hname hcatalog
  | cons hsegment hname hrest ih =>
    rw [registerAlong_cons resource _ hrest.ne_nil.1, registerAlong_cons resource _ hrest.ne_nil.2]
    exact unnamed_enterOrCreate_congr (unnamed_store_congr hname hcatalog) hsegment
      fun _ _ hsame => ih hsame

/-- The names stand for the same keys, each in its own selection. -/
def SameSelection (selects others : Selection) (name other : String) : Prop :=
  selects name = others other

theorem sameSelection_ownKey {resource : Resource kind} {name other : String}
    (h : SameKey (resource.storageKey kind) (resource.storageKey kind) name other) :
    SameSelection (ownKey kind resource) (ownKey kind resource) name other := by
  funext key
  rw [ownKey, ownKey, show Name.fold _ = _ from h]

theorem sameSelection_selects {name other : String} (h : SameKey id id name other) :
    SameSelection kind.selects kind.selects name other := by
  have hfold : Name.fold name = Name.fold other := h
  funext key
  cases kind with
  | table => exact congrArg (key == ·) hfold
  | function => exact congrArg ((Name.splitQualified? key).map (·.2) == some ·) hfold
  | procedure => exact congrArg (key == ·) hfold
  | tableFunction => exact congrArg (key == ·) hfold

theorem enterAndPrune_congr {segment written : String}
    (hsegment : Name.fold segment = Name.fold written) (change : Catalog → Catalog)
    (catalog : Catalog) :
    catalog.enterAndPrune segment change = catalog.enterAndPrune written change := by
  unfold enterAndPrune removeSubCatalog
  simp only [subCatalog?_congr hsegment, Namespace.replace_congr hsegment,
    Namespace.erase_congr hsegment]

theorem unregisterAlong_congr {selects chosen : Selection} {segments others : List String}
    (h : SameChain (SameSelection selects chosen) segments others) (catalog : Catalog) :
    catalog.unregisterAlong kind selects segments = catalog.unregisterAlong kind chosen others := by
  induction h generalizing catalog with
  | @last name other hname =>
    show catalog.discard kind selects name = catalog.discard kind chosen other
    rw [discard, discard, show selects name = _ from hname]
  | @cons segment written rest others hsegment hname hrest ih =>
    have hrests : unregisterAlong kind selects rest = unregisterAlong kind chosen others :=
      funext fun sub => ih sub
    rw [unregisterAlong_cons selects _ hrest.ne_nil.1, unregisterAlong_cons chosen _ hrest.ne_nil.2,
      discard, discard, show selects _ = _ from hname, hrests, enterAndPrune_congr hsegment]

theorem findSome?_seen?_congr {selects chosen : Selection} {segments others : List String}
    (h : SameChain (SameSelection selects chosen) segments others) (catalog : Catalog) :
    (Place.splits segments).findSome? (catalog.seen? kind selects) =
      (Place.splits others).findSome? (catalog.seen? kind chosen) := by
  induction h generalizing catalog with
  | @last name other hname =>
    rw [findSome?_seen?_splits_cons, findSome?_seen?_splits_cons, Name.dotted_singleton,
      Name.dotted_singleton, show selects name = _ from hname]
    cases catalog.subCatalog? name <;> cases catalog.subCatalog? other <;> rfl
  | cons hsegment hname hrest ih =>
    rw [findSome?_seen?_splits_cons, findSome?_seen?_splits_cons, show selects _ = _ from hname,
      subCatalog?_congr hsegment]
    simp only [ih]

/-! ## Creates and deletes -/

/-- What a create tells: the tree without the names of its nodes and the resource that is stored, or
the error without the names that it quotes. -/
def outcome (result : Except CatalogError (Catalog × Resource kind)) :
    Except CatalogError (Catalog × Resource kind) :=
  (result.map fun (created, stored) => (created.unnamed, stored)).mapError CatalogError.unquoted

variable {nested : Bool} {first second : String}

/-- The keys under which a create stores a resource. -/
def storedKeys (nested : Bool) (kind : ResourceKind) (resource : Resource kind) (name : String) :
    List (List String × String) :=
  placeKeys (resource.storageKey kind) (Place.chain nested name)

/-- The keys by which a delete chooses what it removes: those of the full names of a function if a
full name is given, else those of the plain names. -/
def deletedKeys (nested : Bool) (kind : ResourceKind) (name : String) : List (List String × String) :=
  if kind = .function ∧ ':' ∈ name.toList then
    match Name.splitQualified? name with
    | none => []
    | some (group, rest) => placeKeys (Name.qualify group) (Place.chain nested rest)
  else placeKeys id (Place.chain nested name)

theorem create_congr (mode : CreateMode) {resource : Resource kind}
    (hblank : (Name.segments first).any Text.isBlank = (Name.segments second).any Text.isBlank)
    (hkeys : storedKeys nested kind resource first = storedKeys nested kind resource second)
    (catalog : Catalog) :
    outcome (catalog.create nested mode kind first resource) =
      outcome (catalog.create nested mode kind second resource) := by
  have hchain := sameChain_of_placeKeys_eq (Place.chain_ne_nil nested first) hkeys
  have hselection := hchain.imp sameSelection_ownKey
  have hoccupant : catalog.occupant? kind resource = catalog.seen? kind (ownKey kind resource) :=
    funext (occupant?_eq resource catalog)
  have hfound : (Place.splits (Place.chain nested first)).findSome?
        (catalog.occupant? kind resource) =
      (Place.splits (Place.chain nested second)).findSome? (catalog.occupant? kind resource) := by
    rw [hoccupant, findSome?_seen?_congr hselection]
  have hcreated : (catalog.registerAlong kind resource (Place.chain nested first)).unnamed =
      (catalog.registerAlong kind resource (Place.chain nested second)).unnamed :=
    unnamed_registerAlong_congr hchain rfl
  unfold create
  rw [Place.ofName_eq, Place.ofName_eq, hblank]
  cases (Name.segments second).any Text.isBlank with
  | true => rfl
  | false =>
    show outcome (resource.validate kind >>= _) = outcome (resource.validate kind >>= _)
    cases resource.validate kind with
    | error error => rfl
    | ok _ =>
      have hregistered : outcome (.ok ((Place.splits (Place.chain nested first)).foldl
            (register kind resource) catalog, resource)) =
          outcome (.ok ((Place.splits (Place.chain nested second)).foldl
            (register kind resource) catalog, resource)) := by
        rw [foldl_register_splits, foldl_register_splits]
        exact congrArg (fun tree => Except.ok (tree, resource)) hcreated
      simp only [bind, Except.bind, hfound]
      cases (Place.splits (Place.chain nested second)).findSome? (catalog.occupant? kind resource) with
      | none => exact hregistered
      | some existing =>
        cases mode with
        | createDefault => rfl
        | createOrReplace => exact hregistered
        | createIfNotExists => rfl

theorem any_holdsAt_eq (selects : Selection) (places : List Place) (catalog : Catalog) :
    places.any (catalog.holdsAt kind selects) =
      (places.findSome? (catalog.seen? kind selects)).isSome := by
  induction places with
  | nil => rfl
  | cons place rest ih =>
    rw [List.any_cons, List.findSome?_cons, ih, holdsAt_eq]
    cases catalog.seen? kind selects place <;> rfl

theorem deleteSelected_congr {selects chosen : Selection}
    (hblank : (Name.segments first).any Text.isBlank = (Name.segments second).any Text.isBlank)
    (hchain : SameChain (SameSelection selects chosen) (Place.chain nested first)
      (Place.chain nested second)) (identity other : String) (catalog : Catalog) :
    (catalog.deleteSelected nested kind identity first selects).mapError CatalogError.unquoted =
      (catalog.deleteSelected nested kind other second chosen).mapError CatalogError.unquoted := by
  have hholds : (Place.splits (Place.chain nested first)).any (catalog.holdsAt kind selects) =
      (Place.splits (Place.chain nested second)).any (catalog.holdsAt kind chosen) := by
    rw [any_holdsAt_eq, any_holdsAt_eq, findSome?_seen?_congr hchain]
  unfold deleteSelected
  rw [Place.ofName_eq, Place.ofName_eq, hblank]
  cases (Name.segments second).any Text.isBlank with
  | true => rfl
  | false =>
    show Except.mapError _ (if (Place.splits (Place.chain nested first)).any _ = true then _ else _) =
      Except.mapError _ (if (Place.splits (Place.chain nested second)).any _ = true then _ else _)
    rw [hholds, prunePlaces_foldl_unregister, prunePlaces_foldl_unregister,
      unregisterAlong_congr hchain]
    split <;> rfl

theorem deletedKeys_qualify {group : String} (hgroup : ':' ∉ group.toList) (nested : Bool)
    (name : String) :
    deletedKeys nested .function (Name.qualify group name) =
      placeKeys (Name.qualify group) (Place.chain nested name) := by
  rw [deletedKeys, if_pos ⟨rfl, Name.colon_mem_qualify group name⟩,
    Name.splitQualified?_qualify hgroup]

-- A delete takes both names for full names or neither.
theorem fullNames_or_plain (hfold : Name.fold first = Name.fold second) (kind : ResourceKind) :
    (kind = .function ∧ ∃ group name other written, ':' ∉ group.toList ∧ ':' ∉ other.toList ∧
      first = Name.qualify group name ∧ second = Name.qualify other written) ∨
    (¬ (kind = .function ∧ ':' ∈ first.toList) ∧ ¬ (kind = .function ∧ ':' ∈ second.toList)) := by
  have hcolon := Name.colon_mem_iff_of_respell_eq Text.transparent_mergeChar
    (Name.respell_mergeChar_eq_of_fold_eq hfold)
  by_cases hfull : kind = .function ∧ ':' ∈ first.toList
  · rcases Name.exists_eq_qualify hfull.2 with ⟨group, name, hgroup, hfirst⟩
    rcases Name.exists_eq_qualify (hcolon.mp hfull.2) with ⟨other, written, hother, hsecond⟩
    exact .inl ⟨hfull.1, group, name, other, written, hgroup, hother, hfirst, hsecond⟩
  · exact .inr ⟨hfull, mt (And.imp_right hcolon.mpr) hfull⟩

theorem delete_congr (hfold : Name.fold first = Name.fold second)
    (hkeys : deletedKeys nested kind first = deletedKeys nested kind second) (catalog : Catalog) :
    (catalog.delete nested kind first).mapError CatalogError.unquoted =
      (catalog.delete nested kind second).mapError CatalogError.unquoted := by
  have hmerge := Name.respell_mergeChar_eq_of_fold_eq hfold
  rcases fullNames_or_plain hfold kind with
    ⟨rfl, group, name, other, written, hgroup, hother, rfl, rfl⟩ | ⟨hfirst, hsecond⟩
  · have hnames := (Name.respell_eq_of_respell_qualify_eq Text.transparent_mergeChar hgroup hother
      hmerge).2
    rw [deletedKeys_qualify hgroup, deletedKeys_qualify hother] at hkeys
    have hchain := sameChain_of_placeKeys_eq (Place.chain_ne_nil nested name) hkeys
    rw [delete_qualify, delete_qualify, deleteFunctionByFullName_qualify hgroup,
      deleteFunctionByFullName_qualify hother]
    exact deleteSelected_congr
      (Name.any_isBlank_eq_of_respell_eq Text.transparent_mergeChar hnames)
      (hchain.imp fun hplace => funext fun key => congrArg (key == ·) hplace) _ _ catalog
  · rw [deletedKeys, if_neg hfirst, deletedKeys, if_neg hsecond] at hkeys
    have hchain := sameChain_of_placeKeys_eq (Place.chain_ne_nil nested first) hkeys
    rw [delete, if_neg hfirst, delete, if_neg hsecond]
    exact deleteSelected_congr (Name.any_isBlank_eq_of_respell_eq Text.transparent_mergeChar hmerge)
      (hchain.imp sameSelection_selects) _ _ catalog

/-! ## Names that have the same keys -/

theorem placeKeys_eq_of_alike {stored others : String → String}
    (hstored : ∀ {name other : String}, Name.Alike name other → SameKey stored others name other)
    {segments written : List String}
    (h : segments.map (Name.respell Text.spareChar) = written.map (Name.respell Text.spareChar)) :
    placeKeys stored segments = placeKeys others written := by
  induction segments generalizing written with
  | nil => rw [List.map_eq_nil_iff.mp h.symm]; rfl
  | cons segment rest ih =>
    cases written with
    | nil => cases h
    | cons other written =>
      have hdotted : Name.Alike (Name.dotted (segment :: rest)) (Name.dotted (other :: written)) := by
        rw [Name.Alike, Name.respell_dotted Text.transparent_spareChar, h,
          Name.respell_dotted Text.transparent_spareChar]
      rw [List.map_cons, List.map_cons] at h
      injection h with hsegment hrest
      rw [placeKeys_cons, placeKeys_cons, show Name.fold _ = _ from hstored hdotted, ih hrest,
        Name.Alike.fold_eq hsegment]

theorem placeKeys_chain_of_alike {stored others : String → String}
    (hstored : ∀ {name other : String}, Name.Alike name other → SameKey stored others name other)
    (h : Name.Alike first second) :
    placeKeys stored (Place.chain nested first) = placeKeys others (Place.chain nested second) := by
  apply placeKeys_eq_of_alike hstored
  cases nested with
  | false =>
    show [Name.respell _ first] = [Name.respell _ second]
    rw [show Name.respell _ first = _ from h]
  | true =>
    show (Name.segments first).map _ = (Name.segments second).map _
    rw [← Name.segments_respell Text.transparent_spareChar,
      ← Name.segments_respell Text.transparent_spareChar, show Name.respell _ first = _ from h]

theorem placeKeys_chain_flat {stored others : String → String}
    (h : SameKey stored others first second) :
    placeKeys stored (Place.chain false first) = placeKeys others (Place.chain false second) := by
  show placeKeys stored [first] = placeKeys others [second]
  rw [placeKeys_singleton, placeKeys_singleton, show Name.fold _ = _ from h]

theorem storedKeys_eq (hfold : Name.fold first = Name.fold second) {kind : ResourceKind}
    (h : nested = false ∧ kind ≠ .function ∨ Name.Alike first second) (resource : Resource kind) :
    storedKeys nested kind resource first = storedKeys nested kind resource second := by
  rcases h with ⟨rfl, hkind⟩ | halike
  · apply placeKeys_chain_flat
    cases kind with
    | table => exact hfold
    | function => exact absurd rfl hkind
    | procedure => exact hfold
    | tableFunction => exact hfold
  · refine placeKeys_chain_of_alike (fun {name other} hplace => ?_) halike
    cases kind with
    | table => exact hplace.fold_eq
    | function => exact (Name.Alike.qualify rfl hplace).fold_eq
    | procedure => exact hplace.fold_eq
    | tableFunction => exact hplace.fold_eq

theorem deletedKeys_eq (hfold : Name.fold first = Name.fold second) (kind : ResourceKind)
    (h : nested = false ∨ Name.Alike first second) :
    deletedKeys nested kind first = deletedKeys nested kind second := by
  rcases fullNames_or_plain hfold kind with
    ⟨rfl, group, name, other, written, hgroup, hother, rfl, rfl⟩ | ⟨hfirst, hsecond⟩
  · rw [deletedKeys_qualify hgroup, deletedKeys_qualify hother]
    rcases h with rfl | halike
    · exact placeKeys_chain_flat hfold
    · have hparts := Name.respell_eq_of_respell_qualify_eq Text.transparent_spareChar hgroup hother
        halike
      exact placeKeys_chain_of_alike
        (fun hplace => (Name.Alike.qualify hparts.1 hplace).fold_eq) hparts.2
  · rw [deletedKeys, if_neg hfirst, deletedKeys, if_neg hsecond]
    rcases h with rfl | halike
    · exact placeKeys_chain_flat hfold
    · exact placeKeys_chain_of_alike Name.Alike.fold_eq halike

/-- **Names with the same key are interchangeable** if they have the same keys at all their places.
That holds of flat names, where no group comes in front of them, and of names that are alike, as all
names with the same key are that have no capital sigma (`Name.Alike.of_fold_eq`). -/
theorem outcomes_of_fold_eq (hfold : Name.fold first = Name.fold second) (nested : Bool)
    (kind : ResourceKind) :
    (deletedKeys nested kind first = deletedKeys nested kind second → ∀ catalog : Catalog,
      (catalog.delete nested kind first).mapError CatalogError.unquoted =
        (catalog.delete nested kind second).mapError CatalogError.unquoted) ∧
    (∀ resource : Resource kind,
      storedKeys nested kind resource first = storedKeys nested kind resource second →
        ∀ (mode : CreateMode) (catalog : Catalog),
          outcome (catalog.create nested mode kind first resource) =
            outcome (catalog.create nested mode kind second resource)) ∧
    (nested = false ∨ Name.Alike first second →
      deletedKeys nested kind first = deletedKeys nested kind second) ∧
    (nested = false ∧ kind ≠ .function ∨ Name.Alike first second →
      ∀ resource : Resource kind,
        storedKeys nested kind resource first = storedKeys nested kind resource second) := by
  have hblank := Name.any_isBlank_eq_of_respell_eq Text.transparent_mergeChar
    (Name.respell_mergeChar_eq_of_fold_eq hfold)
  exact ⟨delete_congr hfold, fun _ hkeys mode => create_congr mode hblank hkeys,
    deletedKeys_eq hfold kind, storedKeys_eq hfold⟩

-- The names are not alike, but a sigma at the start of a segment is never final.
theorem outcomes_of_fold_eq_sigma :
    ¬ Name.Alike "Σῶμα.t" "σῶμα.t" ∧
      (((new "root").store .table (Table.named "t" []) "ΣΏΜΑ.t").delete true .table
          "Σῶμα.t").mapError CatalogError.unquoted =
        (((new "root").store .table (Table.named "t" []) "ΣΏΜΑ.t").delete true .table
          "σῶμα.t").mapError CatalogError.unquoted ∧
      outcome ((new "root").create true .createDefault .table "Σῶμα.t" (Table.named "t" [])) =
        outcome ((new "root").create true .createDefault .table "σῶμα.t" (Table.named "t" [])) := by
  have hdecided : ¬ Name.Alike "Σῶμα.t" "σῶμα.t" ∧ Name.fold "Σῶμα.t" = Name.fold "σῶμα.t" ∧
      deletedKeys true .table "Σῶμα.t" = deletedKeys true .table "σῶμα.t" := by
    decide +kernel
  have hboth := outcomes_of_fold_eq hdecided.2.1 true .table
  exact ⟨hdecided.1, hboth.1 hdecided.2.2 _, hboth.2.1 _ hdecided.2.2 _ _⟩

-- The sigma ends a word in the name of the sub-catalog, but not in the whole name.
theorem delete_differs_of_sigma_before_dot :
    Name.fold "aΣ.b" = Name.fold "aσ.b" ∧
      (((new "root").create true .createDefault .table "aΣ.b" (Table.named "b" [])).toOption.map
          fun (created, _) => ((created.delete true .table "aΣ.b").toOption.map isEmpty,
            (created.delete true .table "aσ.b").toOption.map isEmpty)) =
        some (some true, some false) := by
  constructor <;> decide +kernel

end Catalog

end SchemaCatalog
