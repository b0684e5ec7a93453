import SchemaCatalog.Catalog.Create
import SchemaCatalog.Catalog.Delete
import SchemaCatalog.Proofs.Catalog.Namespace

/-!
# Creating and deleting along a chain of segments

The places of a name are visited one after the other, each from the root.  The same work can be done
in one descent along the segments of the name: at each node something happens to the resources of the
node, and the rest happens in the sub-catalog of the next segment.  `registerAlong` and
`unregisterAlong` are these descents.
-/

namespace SchemaCatalog

namespace Place

/-- The place one level further down. -/
def below (segment : String) (place : Place) : Place :=
  ⟨segment :: place.catalogs, place.name⟩

theorem splits_cons (segment : String) (rest : List String) :
    splits (segment :: rest) =
      ⟨[], Name.dotted (segment :: rest)⟩ :: (splits rest).map (below segment) := by
  rw [splits, List.length_cons, List.range_succ_eq_map, List.map_cons, List.map_map, splits,
    List.map_map]
  rfl

theorem splits_singleton (name : String) : splits [name] = [⟨[], name⟩] := by
  rw [splits_cons, Name.dotted, String.intercalate_singleton]
  rfl

theorem splits_ne_nil {segments : List String} (hne : segments ≠ []) : splits segments ≠ [] := by
  cases segments with
  | nil => exact absurd rfl hne
  | cons segment rest => rw [splits_cons]; exact List.cons_ne_nil _ _

/-- The segments along which a name is registered. -/
def chain (nested : Bool) (name : String) : List String :=
  if nested then Name.segments name else [name]

theorem chain_ne_nil (nested : Bool) (name : String) : chain nested name ≠ [] := by
  cases nested
  · exact List.cons_ne_nil _ _
  · exact Name.segments_ne_nil name

theorem dotted_chain (nested : Bool) (name : String) : Name.dotted (chain nested name) = name := by
  cases nested
  · exact Name.dotted_singleton name
  · exact Name.dotted_segments name

-- The first place of a name is the whole name at the root.
theorem exists_splits_chain (nested : Bool) (name : String) :
    ∃ rest, splits (chain nested name) = ⟨[], name⟩ :: rest := by
  have hdotted := dotted_chain nested name
  cases hchain : chain nested name with
  | nil => exact absurd hchain (chain_ne_nil nested name)
  | cons segment rest =>
    rw [hchain] at hdotted
    exact ⟨_, by rw [splits_cons, hdotted]⟩

theorem flat_mem_splits_chain (nested : Bool) (name : String) :
    ⟨[], name⟩ ∈ splits (chain nested name) := by
  rcases exists_splits_chain nested name with ⟨rest, hsplits⟩
  rw [hsplits]
  exact List.mem_cons_self

theorem ofName_eq (nested : Bool) (name : String) :
    ofName nested name =
      if (Name.segments name).any Text.isBlank then .error (.invalidName name)
      else .ok (splits (chain nested name)) := by
  cases nested
  · have hchain : chain false name = [name] := rfl
    rw [hchain, splits_singleton]
    rfl
  · rfl

theorem eq_splits_of_ofName {nested : Bool} {name : String} {places : List Place}
    (h : ofName nested name = .ok places) : places = splits (chain nested name) := by
  rw [ofName_eq] at h
  split at h
  · cases h
  · cases h
    rfl

end Place

namespace Catalog

/-- Stores a resource at a node. -/
def store (kind : ResourceKind) (resource : Resource kind) (name : String) (node : Catalog) :
    Catalog :=
  node.withResources kind
    ((node.resources kind).insert (resource.storageKey kind name) resource)

/-- Removes from a node what is stored under the keys chosen for a name. -/
def discard (kind : ResourceKind) (selects : Selection) (name : String) (node : Catalog) :
    Catalog :=
  node.withResources kind ((node.resources kind).removeWhere (selects name))

/-- Changes a sub-catalog, which is made on demand. -/
def enterOrCreate (segment : String) (change : Catalog → Catalog) (catalog : Catalog) : Catalog :=
  match catalog.subCatalog? segment with
  | some sub => { catalog with catalogs := catalog.catalogs.replace segment (change sub) }
  | none =>
    { catalog with catalogs := catalog.catalogs.insert segment (change (newImplicit segment)) }

/-- Changes a sub-catalog if it is there. -/
def enter (segment : String) (change : Catalog → Catalog) (catalog : Catalog) : Catalog :=
  match catalog.subCatalog? segment with
  | some sub => { catalog with catalogs := catalog.catalogs.replace segment (change sub) }
  | none => catalog

/-- Changes a sub-catalog if it is there, and removes it if it is implicit and empty then. -/
def enterAndPrune (segment : String) (change : Catalog → Catalog) (catalog : Catalog) : Catalog :=
  match catalog.subCatalog? segment with
  | some sub =>
    if (change sub).implicit && (change sub).isEmpty then catalog.removeSubCatalog segment
    else { catalog with catalogs := catalog.catalogs.replace segment (change sub) }
  | none => catalog

/-- Stores a resource along a chain of segments. -/
def registerAlong (kind : ResourceKind) (resource : Resource kind) :
    List String → Catalog → Catalog
  | [], catalog => catalog
  | [name], catalog => catalog.store kind resource name
  | segment :: next :: rest, catalog =>
    (catalog.store kind resource (Name.dotted (segment :: next :: rest))).enterOrCreate segment
      (registerAlong kind resource (next :: rest))

/-- Removes the chosen keys along a chain of segments, and the nodes that this leaves empty. -/
def unregisterAlong (kind : ResourceKind) (selects : Selection) :
    List String → Catalog → Catalog
  | [], catalog => catalog
  | [name], catalog => catalog.discard kind selects name
  | segment :: next :: rest, catalog =>
    (catalog.discard kind selects (Name.dotted (segment :: next :: rest))).enterAndPrune segment
      (unregisterAlong kind selects (next :: rest))

variable {kind : ResourceKind}

theorem registerAlong_cons (resource : Resource kind) (segment : String) {rest : List String}
    (hne : rest ≠ []) (catalog : Catalog) :
    catalog.registerAlong kind resource (segment :: rest) =
      (catalog.store kind resource (Name.dotted (segment :: rest))).enterOrCreate segment
        (registerAlong kind resource rest) := by
  cases rest with
  | nil => exact absurd rfl hne
  | cons next others => rfl

theorem unregisterAlong_cons (selects : Selection) (segment : String) {rest : List String}
    (hne : rest ≠ []) (catalog : Catalog) :
    catalog.unregisterAlong kind selects (segment :: rest) =
      (catalog.discard kind selects (Name.dotted (segment :: rest))).enterAndPrune segment
        (unregisterAlong kind selects rest) := by
  cases rest with
  | nil => exact absurd rfl hne
  | cons next others => rfl

/-! ## What a change of one kind or one sub-catalog leaves alone -/

theorem resources_store (resource : Resource kind) (name : String) (node : Catalog) :
    (node.store kind resource name).resources kind =
      (node.resources kind).insert (resource.storageKey kind name) resource :=
  resources_withResources kind node _

theorem resources_discard (selects : Selection) (name : String) (node : Catalog) :
    (node.discard kind selects name).resources kind =
      (node.resources kind).removeWhere (selects name) :=
  resources_withResources kind node _

theorem resources_withResources_of_ne {kind other : ResourceKind} (hne : other ≠ kind)
    (node : Catalog) (space : Namespace (Resource kind)) :
    (node.withResources kind space).resources other = node.resources other := by
  cases kind <;> cases other <;> first | rfl | exact absurd rfl hne

theorem subCatalog?_withResources (kind : ResourceKind) (node : Catalog)
    (space : Namespace (Resource kind)) (name : String) :
    (node.withResources kind space).subCatalog? name = node.subCatalog? name := by
  cases kind <;> rfl

theorem catalogs_withResources (kind : ResourceKind) (node : Catalog)
    (space : Namespace (Resource kind)) :
    (node.withResources kind space).catalogs = node.catalogs := by
  cases kind <;> rfl

theorem implicit_withResources (kind : ResourceKind) (node : Catalog)
    (space : Namespace (Resource kind)) :
    (node.withResources kind space).implicit = node.implicit := by
  cases kind <;> rfl

theorem resources_enterOrCreate (other : ResourceKind) (segment : String)
    (change : Catalog → Catalog) (node : Catalog) :
    (node.enterOrCreate segment change).resources other = node.resources other := by
  unfold enterOrCreate
  cases node.subCatalog? segment <;> cases other <;> rfl

theorem resources_enterAndPrune (other : ResourceKind) (segment : String)
    (change : Catalog → Catalog) (node : Catalog) :
    (node.enterAndPrune segment change).resources other = node.resources other := by
  unfold enterAndPrune
  split
  · split <;> cases other <;> rfl
  · rfl

theorem implicit_enterOrCreate (segment : String) (change : Catalog → Catalog) (node : Catalog) :
    (node.enterOrCreate segment change).implicit = node.implicit := by
  unfold enterOrCreate
  cases node.subCatalog? segment <;> rfl

theorem implicit_enterAndPrune (segment : String) (change : Catalog → Catalog) (node : Catalog) :
    (node.enterAndPrune segment change).implicit = node.implicit := by
  unfold enterAndPrune
  split
  · split <;> rfl
  · rfl

theorem resources_registerAlong (resource : Resource kind) (segment : String) (rest : List String)
    (catalog : Catalog) (other : ResourceKind) :
    (catalog.registerAlong kind resource (segment :: rest)).resources other =
      (catalog.store kind resource (Name.dotted (segment :: rest))).resources other := by
  cases rest with
  | nil => rw [registerAlong, Name.dotted_singleton]
  | cons next others => rw [registerAlong, resources_enterOrCreate]

theorem resources_unregisterAlong (selects : Selection) (segment : String) (rest : List String)
    (catalog : Catalog) (other : ResourceKind) :
    (catalog.unregisterAlong kind selects (segment :: rest)).resources other =
      (catalog.discard kind selects (Name.dotted (segment :: rest))).resources other := by
  cases rest with
  | nil => rw [unregisterAlong, Name.dotted_singleton]
  | cons next others => rw [unregisterAlong, resources_enterAndPrune]

theorem implicit_registerAlong (resource : Resource kind) (segments : List String)
    (catalog : Catalog) :
    (catalog.registerAlong kind resource segments).implicit = catalog.implicit := by
  unfold registerAlong
  split
  · rfl
  · exact implicit_withResources kind catalog _
  · rw [implicit_enterOrCreate]
    exact implicit_withResources kind catalog _

theorem implicit_unregisterAlong (selects : Selection) (segments : List String)
    (catalog : Catalog) :
    (catalog.unregisterAlong kind selects segments).implicit = catalog.implicit := by
  unfold unregisterAlong
  split
  · rfl
  · exact implicit_withResources kind catalog _
  · rw [implicit_enterAndPrune]
    exact implicit_withResources kind catalog _

/-! ## Paths -/

theorem descend?_cons_eq_some_iff {name : String} {path : List String} {catalog node : Catalog} :
    catalog.descend? (name :: path) = some node ↔
      ∃ sub, catalog.subCatalog? name = some sub ∧ sub.descend? path = some node := by
  rw [descend?]
  cases catalog.subCatalog? name with
  | none => simp
  | some sub => simp

theorem subCatalog?_congr {name other : String} (h : Name.fold name = Name.fold other)
    (catalog : Catalog) : catalog.subCatalog? name = catalog.subCatalog? other :=
  Namespace.get?_congr h catalog.catalogs

/-! ## Sub-catalogs after a change of one -/

theorem subCatalog?_replace_self {catalog sub : Catalog} {segment : String} (changed : Catalog)
    (hsub : catalog.subCatalog? segment = some sub) :
    ({ catalog with catalogs := catalog.catalogs.replace segment changed } : Catalog).subCatalog?
      segment = some changed := by
  have hget : catalog.catalogs.get? segment = some sub := hsub
  show (catalog.catalogs.replace segment changed).get? segment = some changed
  rw [Namespace.get?_replace, if_pos rfl, hget]
  rfl

theorem subCatalog?_insert_self (catalog sub : Catalog) (segment : String) :
    ({ catalog with catalogs := catalog.catalogs.insert segment sub } : Catalog).subCatalog?
      segment = some sub := by
  show (catalog.catalogs.insert segment sub).get? segment = some sub
  rw [Namespace.get?_insert, if_pos rfl]

theorem subCatalog?_removeSubCatalog_self (catalog : Catalog) (segment : String) :
    (catalog.removeSubCatalog segment).subCatalog? segment = none := by
  show (catalog.catalogs.erase segment).get? segment = none
  rw [Namespace.get?_erase, if_pos rfl]

theorem subCatalog?_enterOrCreate_self (segment : String) (change : Catalog → Catalog)
    (node : Catalog) :
    (node.enterOrCreate segment change).subCatalog? segment =
      some (change ((node.subCatalog? segment).getD (newImplicit segment))) := by
  cases hsub : node.subCatalog? segment with
  | none =>
    simp only [enterOrCreate, hsub, Option.getD_none]
    exact subCatalog?_insert_self node _ segment
  | some sub =>
    simp only [enterOrCreate, hsub, Option.getD_some]
    exact subCatalog?_replace_self _ hsub

theorem subCatalog?_enterOrCreate_of_ne {segment name : String}
    (hne : Name.fold name ≠ Name.fold segment) (change : Catalog → Catalog) (node : Catalog) :
    (node.enterOrCreate segment change).subCatalog? name = node.subCatalog? name := by
  unfold enterOrCreate
  cases node.subCatalog? segment with
  | none =>
    show (node.catalogs.insert segment _).get? name = node.catalogs.get? name
    rw [Namespace.get?_insert, if_neg hne]
  | some sub =>
    show (node.catalogs.replace segment _).get? name = node.catalogs.get? name
    rw [Namespace.get?_replace, if_neg hne]

theorem subCatalog?_enterAndPrune_self (segment : String) (change : Catalog → Catalog)
    (node : Catalog) :
    (node.enterAndPrune segment change).subCatalog? segment =
      (node.subCatalog? segment).bind fun sub =>
        if (change sub).implicit && (change sub).isEmpty then none else some (change sub) := by
  cases hsub : node.subCatalog? segment with
  | none =>
    simp only [enterAndPrune, hsub]
    rfl
  | some sub =>
    simp only [enterAndPrune, hsub, Option.bind_some]
    split
    · exact subCatalog?_removeSubCatalog_self node segment
    · exact subCatalog?_replace_self _ hsub

theorem subCatalog?_enterAndPrune_of_ne {segment name : String}
    (hne : Name.fold name ≠ Name.fold segment) (change : Catalog → Catalog) (node : Catalog) :
    (node.enterAndPrune segment change).subCatalog? name = node.subCatalog? name := by
  unfold enterAndPrune
  split
  · split
    · show (node.catalogs.erase segment).get? name = node.catalogs.get? name
      rw [Namespace.get?_erase, if_neg hne]
    · show (node.catalogs.replace segment _).get? name = node.catalogs.get? name
      rw [Namespace.get?_replace, if_neg hne]
  · rfl

-- Two changes of one sub-catalog are one.
theorem enterOrCreate_enterOrCreate (segment : String) (first second : Catalog → Catalog)
    (catalog : Catalog) :
    (catalog.enterOrCreate segment first).enterOrCreate segment second =
      catalog.enterOrCreate segment (second ∘ first) := by
  cases hsub : catalog.subCatalog? segment with
  | some sub =>
    have hafter := subCatalog?_replace_self (first sub) hsub
    simp only [enterOrCreate, hsub, hafter, Namespace.replace_replace, Function.comp_apply]
  | none =>
    have hafter := subCatalog?_insert_self catalog (first (newImplicit segment)) segment
    simp only [enterOrCreate, hsub, hafter, Namespace.replace_insert, Function.comp_apply]

theorem enter_enter (segment : String) (first second : Catalog → Catalog) (catalog : Catalog) :
    (catalog.enter segment first).enter segment second =
      catalog.enter segment (second ∘ first) := by
  cases hsub : catalog.subCatalog? segment with
  | some sub =>
    have hafter := subCatalog?_replace_self (first sub) hsub
    simp only [enter, hsub, hafter, Namespace.replace_replace, Function.comp_apply]
  | none => simp only [enter, hsub]

theorem enterAndPrune_enter (segment : String) (first second : Catalog → Catalog)
    (catalog : Catalog) :
    (catalog.enter segment first).enterAndPrune segment second =
      catalog.enterAndPrune segment (second ∘ first) := by
  cases hsub : catalog.subCatalog? segment with
  | some sub =>
    have hafter := subCatalog?_replace_self (first sub) hsub
    simp only [enter, enterAndPrune, hsub, hafter, removeSubCatalog, Namespace.replace_replace,
      Namespace.erase_replace, Function.comp_apply]
  | none => simp only [enter, enterAndPrune, hsub]

/-! ## Creating -/

theorem register_below (kind : ResourceKind) (resource : Resource kind) (segment : String)
    (catalog : Catalog) (place : Place) :
    catalog.register kind resource (place.below segment) =
      catalog.enterOrCreate segment fun sub => sub.register kind resource place := rfl

theorem foldl_register_below (kind : ResourceKind) (resource : Resource kind) (segment : String)
    {places : List Place} (hne : places ≠ []) (catalog : Catalog) :
    (places.map (Place.below segment)).foldl (register kind resource) catalog =
      catalog.enterOrCreate segment fun sub => places.foldl (register kind resource) sub := by
  induction places generalizing catalog with
  | nil => exact absurd rfl hne
  | cons place rest ih =>
    rw [List.map_cons, List.foldl_cons, register_below]
    by_cases hrest : rest = []
    · rw [hrest]
      rfl
    · rw [ih hrest, enterOrCreate_enterOrCreate]
      rfl

-- A create is one descent.
theorem foldl_register_splits (kind : ResourceKind) (resource : Resource kind)
    (segments : List String) (catalog : Catalog) :
    (Place.splits segments).foldl (register kind resource) catalog =
      catalog.registerAlong kind resource segments := by
  induction segments generalizing catalog with
  | nil => rfl
  | cons segment rest ih =>
    cases rest with
    | nil =>
      rw [Place.splits_singleton]
      rfl
    | cons next others =>
      have hne : Place.splits (next :: others) ≠ [] := Place.splits_ne_nil (List.cons_ne_nil _ _)
      rw [Place.splits_cons, List.foldl_cons, foldl_register_below kind resource segment hne]
      simp only [ih]
      rfl

/-! ## Deleting -/

theorem unregister_below (kind : ResourceKind) (selects : Selection) (segment : String)
    (catalog : Catalog) (place : Place) :
    catalog.unregister kind selects (place.below segment) =
      catalog.enter segment fun sub => sub.unregister kind selects place := rfl

theorem foldl_unregister_below (kind : ResourceKind) (selects : Selection) (segment : String)
    {places : List Place} (hne : places ≠ []) (catalog : Catalog) :
    (places.map (Place.below segment)).foldl (unregister kind selects) catalog =
      catalog.enter segment fun sub => places.foldl (unregister kind selects) sub := by
  induction places generalizing catalog with
  | nil => exact absurd rfl hne
  | cons place rest ih =>
    rw [List.map_cons, List.foldl_cons, unregister_below]
    by_cases hrest : rest = []
    · rw [hrest]
      rfl
    · rw [ih hrest, enter_enter]
      rfl

/-- Prunes paths one after the other. -/
def prunePaths (paths : List (List String)) (catalog : Catalog) : Catalog :=
  paths.foldl (fun catalog path => (catalog.prune path).1) catalog

theorem subCatalog?_of_isEmpty {catalog : Catalog} (h : catalog.isEmpty = true)
    (segment : String) : catalog.subCatalog? segment = none := by
  have hcatalogs : catalog.catalogs.isEmpty = true := by
    simp only [isEmpty, Bool.and_eq_true] at h
    exact h.2
  have hentries : catalog.catalogs.entries = [] := List.isEmpty_iff.mp hcatalogs
  show catalog.catalogs.entries.lookup (Name.fold segment) = none
  rw [hentries]
  rfl

theorem resources_of_isEmpty {catalog : Catalog} (h : catalog.isEmpty = true)
    (kind : ResourceKind) : catalog.resources kind = .empty := by
  have hall : ∀ {α : Type} {space : Namespace α}, space.isEmpty = true → space = .empty :=
    fun hspace => Namespace.ext_entries (List.isEmpty_iff.mp hspace)
  simp only [isEmpty, Bool.and_eq_true] at h
  cases kind with
  | table => exact hall h.1.1.1.1
  | function => exact hall h.1.1.1.2
  | procedure => exact hall h.1.1.2
  | tableFunction => exact hall h.1.2

theorem prunePaths_of_isEmpty {catalog : Catalog} (h : catalog.isEmpty = true)
    (paths : List (List String)) : prunePaths paths catalog = catalog := by
  induction paths with
  | nil => rfl
  | cons path rest ih =>
    have hprune : (catalog.prune path).1 = catalog := by
      cases path with
      | nil => rfl
      | cons segment path => rw [prune, subCatalog?_of_isEmpty h]
    show prunePaths rest (catalog.prune path).1 = catalog
    rw [hprune]
    exact ih

theorem prune_singleton (segment : String) (catalog : Catalog) :
    (catalog.prune [segment]).1 = catalog.enterAndPrune segment id := by
  rw [prune, enterAndPrune]
  cases catalog.subCatalog? segment with
  | none => rfl
  | some sub =>
    simp only [prune, List.length_nil, decide_true, Bool.true_and, id]
    split <;> rfl

-- Pruning paths through one sub-catalog, and this sub-catalog last, is pruning inside it and then
-- looking at it once: if it goes early it is empty already.
theorem prunePaths_below (segment : String) (paths : List (List String)) (catalog : Catalog) :
    prunePaths (paths.map (segment :: ·) ++ [[segment]]) catalog =
      catalog.enterAndPrune segment (prunePaths paths) := by
  induction paths generalizing catalog with
  | nil => exact prune_singleton segment catalog
  | cons path rest ih =>
    show prunePaths (rest.map (segment :: ·) ++ [[segment]])
      (catalog.prune (segment :: path)).1 = _
    rw [ih, prune]
    cases hsub : catalog.subCatalog? segment with
    | none => simp only [enterAndPrune, hsub]
    | some sub =>
      have hstep : prunePaths (path :: rest) sub = prunePaths rest (sub.prune path).1 := rfl
      simp only
      split
      · rename_i hgone
        simp only [Bool.and_eq_true] at hgone
        have himplicit := hgone.1.2
        have hempty := hgone.2
        have hnone := subCatalog?_removeSubCatalog_self catalog segment
        simp only [enterAndPrune, hsub, hnone, hstep, prunePaths_of_isEmpty hempty, himplicit,
          hempty, Bool.and_self, if_true]
      · have hafter := subCatalog?_replace_self (sub.prune path).1 hsub
        simp only [enterAndPrune, hsub, hafter, hstep, removeSubCatalog,
          Namespace.replace_replace, Namespace.erase_replace]

theorem prunePlaces_eq (places : List Place) (catalog : Catalog) :
    prunePlaces places catalog = prunePaths (places.map Place.catalogs).reverse catalog := by
  rw [prunePlaces, prunePaths, ← List.map_reverse, List.foldl_map]

theorem prunePlaces_splits_cons (segment next : String) (rest : List String) (catalog : Catalog) :
    prunePlaces (Place.splits (segment :: next :: rest)) catalog =
      catalog.enterAndPrune segment (prunePlaces (Place.splits (next :: rest))) := by
  -- the last path is the root, which stays; the one before is the sub-catalog itself
  have hinner : (Place.splits (next :: rest)).map Place.catalogs =
      [] :: ((Place.splits rest).map (Place.below next)).map Place.catalogs := by
    rw [Place.splits_cons, List.map_cons]
  have houter : (Place.splits (segment :: next :: rest)).map Place.catalogs =
      [] :: ((Place.splits (next :: rest)).map Place.catalogs).map (segment :: ·) := by
    rw [Place.splits_cons, List.map_cons, List.map_map, List.map_map]
    rfl
  have hpaths : ∀ paths : List (List String),
      prunePaths (([] :: ([] :: paths).map (segment :: ·)).reverse) catalog =
        catalog.enterAndPrune segment (prunePaths ([] :: paths).reverse) := by
    intro paths
    have hreverse : ([] :: ([] :: paths).map (segment :: ·)).reverse =
        (paths.reverse.map (segment :: ·) ++ [[segment]]) ++ [[]] := by
      simp
    have hroot : ∀ (front : List (List String)) (catalog : Catalog),
        prunePaths (front ++ [[]]) catalog = prunePaths front catalog := by
      intro front catalog
      rw [prunePaths, List.foldl_append]
      rfl
    have hfinal : prunePaths ([] :: paths).reverse = prunePaths paths.reverse := by
      funext sub
      rw [List.reverse_cons, hroot]
    rw [hreverse, hroot, prunePaths_below, hfinal]
  have hfunction : prunePlaces (Place.splits (next :: rest)) =
      prunePaths ((Place.splits (next :: rest)).map Place.catalogs).reverse :=
    funext (prunePlaces_eq _)
  rw [prunePlaces_eq, houter, hfunction, hinner]
  exact hpaths _

-- A delete is one descent.
theorem prunePlaces_foldl_unregister (kind : ResourceKind) (selects : Selection)
    (segments : List String) (catalog : Catalog) :
    prunePlaces (Place.splits segments)
        ((Place.splits segments).foldl (unregister kind selects) catalog) =
      catalog.unregisterAlong kind selects segments := by
  induction segments generalizing catalog with
  | nil => rfl
  | cons segment rest ih =>
    cases rest with
    | nil =>
      rw [Place.splits_singleton]
      rfl
    | cons next others =>
      have hne : Place.splits (next :: others) ≠ [] := Place.splits_ne_nil (List.cons_ne_nil _ _)
      have hfold : (Place.splits (segment :: next :: others)).foldl (unregister kind selects) catalog =
          (catalog.discard kind selects (Name.dotted (segment :: next :: others))).enter segment
            fun sub => (Place.splits (next :: others)).foldl (unregister kind selects) sub := by
        rw [Place.splits_cons, List.foldl_cons, foldl_unregister_below kind selects segment hne]
        rfl
      rw [hfold, prunePlaces_splits_cons, enterAndPrune_enter, unregisterAlong]
      congr 1
      funext sub
      exact ih sub

end Catalog

end SchemaCatalog
