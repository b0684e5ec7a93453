import SchemaCatalog.Proofs.Catalog.Batch
import SchemaCatalog.Proofs.Catalog.CoherentEdits
import SchemaCatalog.Proofs.Catalog.Flat

/-!
# The tree is a flat catalog

With nested registration the tree that operations build from an empty root is coherent, and what its
root holds is what a flat catalog holds after the same operations.  So every outcome is the flat one,
and a path finds what the flat catalog has under the joined name.
-/

namespace SchemaCatalog

/-- The names and groups that an operation is given. -/
def Operation.names : Operation → List String
  | create _ kind name resource => [name, resource.group kind]
  | delete _ name => [name]
  | deleteFunctionByFullName fullName => [fullName]
  | applyDefinitions _ definitions =>
    definitions.tables.map (·.name) ++
      definitions.functions.flatMap (fun definition => [definition.name, definition.group]) ++
      definitions.procedures.map (·.name) ++ definitions.tableFunctions.map (·.name)

namespace Catalog

/-- What the root holds. -/
def flat (catalog : Catalog) : FlatCatalog :=
  ⟨fun kind => catalog.resources kind⟩

/-- The tree and the flat catalog give the same outcome, and the tree stays coherent. -/
structure Agrees {α : Type} (tree : Except CatalogError (Catalog × α))
    (flat : Except CatalogError (FlatCatalog × α)) : Prop where
  outcome : tree.map (fun (catalog, answer) => (catalog.flat, answer)) = flat
  coherent : ∀ catalog answer, tree = .ok (catalog, answer) → Coherent catalog

theorem agrees_error {α : Type} (error : CatalogError) :
    Agrees (.error error : Except CatalogError (Catalog × α)) (.error error) :=
  ⟨rfl, fun _ _ hok => nomatch hok⟩

theorem agrees_ok {α : Type} {catalog : Catalog} (h : Coherent catalog) (answer : α) :
    Agrees (.ok (catalog, answer)) (.ok (catalog.flat, answer)) := by
  refine ⟨rfl, fun changed reply hok => ?_⟩
  cases hok
  exact h

variable {kind : ResourceKind}

theorem flat_withResources (kind : ResourceKind) (catalog : Catalog)
    (space : Namespace (Resource kind)) :
    (catalog.withResources kind space).flat = catalog.flat.withResources kind space := by
  apply congrArg FlatCatalog.mk
  funext other
  by_cases hother : other = kind
  · subst hother
    rw [resources_withResources]
    exact (FlatCatalog.resources_withResources _ catalog.flat space).symm
  · rw [resources_withResources_of_ne hother]
    exact (FlatCatalog.resources_withResources_of_ne hother catalog.flat space).symm

theorem flat_registerAlong (resource : Resource kind) {segments : List String}
    (hne : segments ≠ []) (catalog : Catalog) :
    (catalog.registerAlong kind resource segments).flat =
      (catalog.store kind resource (Name.dotted segments)).flat := by
  cases segments with
  | nil => exact absurd rfl hne
  | cons segment rest =>
    exact congrArg FlatCatalog.mk (funext (resources_registerAlong resource segment rest catalog))

theorem flat_unregisterAlong (selects : Selection) {segments : List String}
    (hne : segments ≠ []) (catalog : Catalog) :
    (catalog.unregisterAlong kind selects segments).flat =
      (catalog.discard kind selects (Name.dotted segments)).flat := by
  cases segments with
  | nil => exact absurd rfl hne
  | cons segment rest =>
    exact congrArg FlatCatalog.mk (funext (resources_unregisterAlong selects segment rest catalog))

/-! ## The places of a name -/

theorem segments_sigmaFree {name : String} (hname : Name.SigmaFree name) :
    ∀ segment ∈ Name.segments name, Name.SigmaFree segment ∧ '.' ∉ segment.toList :=
  fun _ hsegment =>
    ⟨Name.sigmaFree_of_mem_segments hname hsegment, Name.dot_notMem_of_mem_segments hsegment⟩

-- All places of a name see the same, so the first that is taken is the root.
theorem findSome?_occupant? {resource : Resource kind}
    (hselects : ByName kind (ownKey kind resource)) {name : String}
    (hname : Name.SigmaFree name) {catalog : Catalog} (h : Coherent catalog) :
    (Place.splits (Name.segments name)).findSome? (catalog.occupant? kind resource) =
      (catalog.resources kind).get? (resource.storageKey kind name) := by
  have hplace : ∀ place ∈ Place.splits (Name.segments name),
      catalog.occupant? kind resource place =
        (catalog.resources kind).get? (resource.storageKey kind name) := by
    intro place hplace
    have hseen := h.seen?_of_mem_splits hselects (segments_sigmaFree hname) hplace
    rw [occupant?_eq, hseen, Name.dotted_segments]
    exact (Namespace.get?_eq_find? _ _).symm
  cases hplaces : Place.splits (Name.segments name) with
  | nil => exact absurd hplaces (Place.splits_ne_nil (Name.segments_ne_nil name))
  | cons first rest =>
    rw [hplaces] at hplace
    cases hfound : (catalog.resources kind).get? (resource.storageKey kind name) with
    | none =>
      rw [List.findSome?_eq_none_iff]
      exact fun place hmem => (hplace place hmem).trans hfound
    | some existing =>
      rw [List.findSome?_cons, hplace first List.mem_cons_self, hfound]

theorem any_holdsAt {selects : Selection} (hselects : ByName kind selects) {name : String}
    (hname : Name.SigmaFree name) {catalog : Catalog} (h : Coherent catalog) :
    (Place.splits (Name.segments name)).any (catalog.holdsAt kind selects) =
      (catalog.resources kind).keys.any (selects name) := by
  have hplace : ∀ place ∈ Place.splits (Name.segments name),
      catalog.holdsAt kind selects place = (catalog.resources kind).keys.any (selects name) := by
    intro place hplace
    have hseen := h.seen?_of_mem_splits hselects (segments_sigmaFree hname) hplace
    rw [holdsAt_eq, hseen, Name.dotted_segments, Namespace.any_keys]
  cases hplaces : Place.splits (Name.segments name) with
  | nil => exact absurd hplaces (Place.splits_ne_nil (Name.segments_ne_nil name))
  | cons first rest =>
    rw [hplaces] at hplace
    rw [Bool.eq_iff_iff, List.any_eq_true]
    constructor
    · rintro ⟨place, hmem, hholds⟩
      exact hplace place hmem ▸ hholds
    · intro hany
      exact ⟨first, List.mem_cons_self, (hplace first List.mem_cons_self).trans hany⟩

/-! ## One operation -/

theorem agrees_create (mode : CreateMode) {resource : Resource kind}
    (hgroup : Name.SigmaFree (resource.group kind)) {name : String}
    (hname : Name.SigmaFree name) {catalog : Catalog} (h : Coherent catalog) :
    Agrees (catalog.create true mode kind name resource)
      (catalog.flat.create mode kind name resource) := by
  have hchain : Place.chain true name = Name.segments name := rfl
  unfold create FlatCatalog.create FlatCatalog.checkName
  rw [Place.ofName_eq, hchain]
  by_cases hblank : (Name.segments name).any Text.isBlank = true
  · rw [if_pos hblank, if_pos hblank]
    exact agrees_error _
  rw [if_neg hblank, if_neg hblank]
  cases hvalid : resource.validate kind with
  | error error => exact agrees_error error
  | ok _ =>
    have hselects := byName_ownKey hvalid hgroup
    have hcreated := coherent_registerAlong hselects (segments_sigmaFree hname) h
    have hflat : (catalog.registerAlong kind resource (Name.segments name)).flat =
        catalog.flat.withResources kind ((catalog.flat.resources kind).insert
          (resource.storageKey kind name) resource) := by
      rw [flat_registerAlong resource (Name.segments_ne_nil name), Name.dotted_segments]
      exact flat_withResources kind catalog _
    have hroot : (catalog.flat.resources kind).get? (resource.storageKey kind name) =
        (catalog.resources kind).get? (resource.storageKey kind name) := rfl
    simp only [bind, Except.bind, findSome?_occupant? hselects hname h, hroot,
      foldl_register_splits, ← hflat]
    cases (catalog.resources kind).get? (resource.storageKey kind name) with
    | none => cases mode <;> exact agrees_ok hcreated resource
    | some existing =>
      cases mode with
      | createDefault => exact agrees_error _
      | createOrReplace => exact agrees_ok hcreated resource
      | createIfNotExists => exact agrees_ok h existing

theorem agrees_deleteSelected {selects : Selection} (hselects : ByName kind selects)
    (identity : String) {name : String} (hname : Name.SigmaFree name) {catalog : Catalog}
    (h : Coherent catalog) :
    Agrees ((catalog.deleteSelected true kind identity name selects).map (·, Reply.done))
      ((catalog.flat.deleteWhere kind identity name (selects name)).map (·, Reply.done)) := by
  have hchain : Place.chain true name = Name.segments name := rfl
  unfold deleteSelected FlatCatalog.deleteWhere FlatCatalog.checkName
  rw [Place.ofName_eq, hchain]
  by_cases hblank : (Name.segments name).any Text.isBlank = true
  · rw [if_pos hblank, if_pos hblank]
    exact agrees_error _
  rw [if_neg hblank, if_neg hblank]
  have hdeleted := coherent_unregisterAlong hselects (segments_sigmaFree hname) h
  have hflat : (catalog.unregisterAlong kind selects (Name.segments name)).flat =
      catalog.flat.withResources kind
        ((catalog.flat.resources kind).removeWhere (selects name)) := by
    rw [flat_unregisterAlong selects (Name.segments_ne_nil name), Name.dotted_segments]
    exact flat_withResources kind catalog _
  have hroot : (catalog.flat.resources kind).keys.any (selects name) =
      (catalog.resources kind).keys.any (selects name) := rfl
  simp only [bind, Except.bind, any_holdsAt hselects hname h, hroot,
    prunePlaces_foldl_unregister, ← hflat]
  by_cases hany : (catalog.resources kind).keys.any (selects name) = true
  · rw [if_pos hany, if_pos hany]
    exact agrees_ok hdeleted Reply.done
  · rw [if_neg hany, if_neg hany]
    exact agrees_error _

theorem agrees_deleteFunctionByFullName {fullName : String} (hname : Name.SigmaFree fullName)
    {catalog : Catalog} (h : Coherent catalog) :
    Agrees ((catalog.deleteFunctionByFullName true fullName).map (·, Reply.done))
      ((catalog.flat.deleteFunctionByFullName fullName).map (·, Reply.done)) := by
  unfold deleteFunctionByFullName FlatCatalog.deleteFunctionByFullName
  cases hsplit : Name.splitQualified? fullName with
  | none => exact agrees_error _
  | some parts =>
    cases parts with | mk group name
    have hqualified := Name.eq_qualify_of_splitQualified? hsplit
    have hparts : Name.SigmaFree group ∧ Name.SigmaFree name := by
      rw [hqualified.2, Name.qualify, Name.sigmaFree_append, Name.sigmaFree_append] at hname
      exact ⟨hname.1.1, hname.2⟩
    have hselects := byName_key hparts.1 hqualified.1 .function
    have hagrees := agrees_deleteSelected hselects fullName hparts.2 h
    have hkey : ResourceKind.key .function group name = fullName := hqualified.2.symm
    simp only [hkey] at hagrees
    exact hagrees

theorem agrees_delete (kind : ResourceKind) {name : String} (hname : Name.SigmaFree name)
    {catalog : Catalog} (h : Coherent catalog) :
    Agrees ((catalog.delete true kind name).map (·, Reply.done))
      ((catalog.flat.delete kind name).map (·, Reply.done)) := by
  unfold delete FlatCatalog.delete
  by_cases hfull : kind = .function ∧ ':' ∈ name.toList
  · rw [if_pos hfull, if_pos hfull]
    exact agrees_deleteFunctionByFullName hname h
  · rw [if_neg hfull, if_neg hfull]
    exact agrees_deleteSelected (byName_selects kind) name hname h

/-! ## Batches -/

theorem exists_of_mem_mapM {ε α β : Type} {f : α → Except ε β} {xs : List α} {ys : List β}
    (h : xs.mapM f = .ok ys) : ∀ y ∈ ys, ∃ x ∈ xs, f x = .ok y := by
  intro y hy
  have hmem : .ok y ∈ xs.map f := by
    rw [map_eq_map_ok_of_mapM h]
    exact List.mem_map_of_mem hy
  exact List.mem_map.mp hmem

-- The resources of a batch carry the names and groups of its definitions.
theorem sigmaFree_of_mem_resources {mode : CreateMode} {definitions : Definitions}
    {resources : List NamedResource} (hresources : definitions.resources = .ok resources)
    (hnames : ∀ name ∈ (Operation.applyDefinitions mode definitions).names, Name.SigmaFree name) :
    ∀ named ∈ resources,
      Name.SigmaFree named.name ∧ Name.SigmaFree (named.resource.group named.kind) := by
  have hempty : Name.SigmaFree "" := by decide
  simp only [Operation.names, List.mem_append, List.mem_map, List.mem_flatMap] at hnames
  rcases bind_eq_ok_iff.mp hresources with ⟨tables, htables, hresources⟩
  rcases bind_eq_ok_iff.mp hresources with ⟨functions, hfunctions, hresources⟩
  rcases bind_eq_ok_iff.mp hresources with ⟨procedures, hprocedures, hresources⟩
  rcases bind_eq_ok_iff.mp hresources with ⟨tableFunctions, htableFunctions, hresources⟩
  cases hresources
  intro named hnamed
  simp only [List.mem_append] at hnamed
  rcases hnamed with ((hnamed | hnamed) | hnamed) | hnamed
  · rcases exists_of_mem_mapM htables named hnamed with ⟨definition, hmem, hread⟩
    rcases bind_eq_ok_iff.mp hread with ⟨table, -, hread⟩
    cases hread
    exact ⟨hnames _ (Or.inl (Or.inl (Or.inl ⟨definition, hmem, rfl⟩))), hempty⟩
  · rcases exists_of_mem_mapM hfunctions named hnamed with ⟨definition, hmem, hread⟩
    rcases bind_eq_ok_iff.mp hread with ⟨function, hfunction, hread⟩
    cases hread
    rcases bind_eq_ok_iff.mp hfunction with ⟨signatures, -, hfunction⟩
    cases hfunction
    exact ⟨hnames _ (Or.inl (Or.inl (Or.inr ⟨definition, hmem, List.mem_cons_self⟩))),
      hnames _ (Or.inl (Or.inl (Or.inr
        ⟨definition, hmem, List.mem_cons_of_mem _ List.mem_cons_self⟩)))⟩
  · rcases exists_of_mem_mapM hprocedures named hnamed with ⟨definition, hmem, hread⟩
    rcases bind_eq_ok_iff.mp hread with ⟨procedure, -, hread⟩
    cases hread
    exact ⟨hnames _ (Or.inl (Or.inr ⟨definition, hmem, rfl⟩)), hempty⟩
  · rcases exists_of_mem_mapM htableFunctions named hnamed with ⟨definition, hmem, hread⟩
    rcases bind_eq_ok_iff.mp hread with ⟨function, -, hread⟩
    cases hread
    exact ⟨hnames _ (Or.inr ⟨definition, hmem, rfl⟩), hempty⟩

-- A create that fails ends the batch; what was created before it is dropped on both sides.
theorem agrees_createAll (mode : CreateMode) {resources : List NamedResource}
    (hnames : ∀ named ∈ resources,
      Name.SigmaFree named.name ∧ Name.SigmaFree (named.resource.group named.kind))
    {catalog : Catalog} (h : Coherent catalog) :
    Agrees ((catalog.createAll true mode resources).map (·, Reply.done))
      ((catalog.flat.createAll mode resources).map (·, Reply.done)) := by
  induction resources generalizing catalog with
  | nil => exact agrees_ok h Reply.done
  | cons first rest ih =>
    cases first with | mk kind name resource
    have hfirst := hnames _ List.mem_cons_self
    have hcreate := agrees_create mode hfirst.2 hfirst.1 h
    have hflat := hcreate.outcome
    rw [createAll, FlatCatalog.createAll, ← hflat]
    cases hresult : catalog.create true mode kind name resource with
    | error error => exact agrees_error error
    | ok result =>
      cases result with | mk created stored
      exact ih (fun named hnamed => hnames named (List.mem_cons_of_mem _ hnamed))
        (hcreate.coherent created stored hresult)

theorem agrees_applyDefinitions {mode : CreateMode} {definitions : Definitions}
    (hnames : ∀ name ∈ (Operation.applyDefinitions mode definitions).names, Name.SigmaFree name)
    {catalog : Catalog} (h : Coherent catalog) :
    Agrees ((catalog.applyDefinitions true mode definitions).map (·, Reply.done))
      ((catalog.flat.applyDefinitions mode definitions).map (·, Reply.done)) := by
  unfold applyDefinitions FlatCatalog.applyDefinitions
  cases hresources : definitions.resources with
  | error error => exact agrees_error _
  | ok resources => exact agrees_createAll mode (sigmaFree_of_mem_resources hresources hnames) h

/-! ## Runs -/

theorem agrees_run {operation : Operation} (hnames : ∀ name ∈ operation.names, Name.SigmaFree name)
    {catalog : Catalog} (h : Coherent catalog) :
    Agrees (operation.run true catalog) (catalog.flat.run operation) := by
  cases operation with
  | create mode kind name resource =>
    have hname := hnames name List.mem_cons_self
    have hgroup := hnames _ (List.mem_cons_of_mem _ List.mem_cons_self)
    have hcreate := agrees_create mode hgroup hname h
    rw [Operation.run, FlatCatalog.run, ← hcreate.outcome]
    cases hresult : catalog.create true mode kind name resource with
    | error error => exact agrees_error error
    | ok result => exact agrees_ok (hcreate.coherent result.1 result.2 hresult) _
  | delete kind name => exact agrees_delete kind (hnames name List.mem_cons_self) h
  | deleteFunctionByFullName fullName =>
    exact agrees_deleteFunctionByFullName (hnames fullName List.mem_cons_self) h
  | applyDefinitions mode definitions => exact agrees_applyDefinitions hnames h

theorem runAll_agrees {operations : List Operation}
    (hnames : ∀ operation ∈ operations, ∀ name ∈ operation.names, Name.SigmaFree name)
    {catalog : Catalog} (h : Coherent catalog) :
    Coherent (runAll (Operation.run true) operations catalog).1 ∧
      (runAll (Operation.run true) operations catalog).1.flat =
        (runAll FlatCatalog.run operations catalog.flat).1 ∧
      (runAll (Operation.run true) operations catalog).2 =
        (runAll FlatCatalog.run operations catalog.flat).2 := by
  induction operations generalizing catalog with
  | nil => exact ⟨h, rfl, rfl⟩
  | cons operation rest ih =>
    have hrest := fun other hother => hnames other (List.mem_cons_of_mem _ hother)
    have hstep := agrees_run (hnames operation List.mem_cons_self) h
    rw [runAll, runAll, ← hstep.outcome]
    cases hresult : operation.run true catalog with
    | error error =>
      -- the failed operation is skipped on both sides
      rcases ih hrest h with ⟨hcoherent, hflat, hreplies⟩
      exact ⟨hcoherent, hflat, congrArg (Except.error error :: ·) hreplies⟩
    | ok result =>
      cases result with | mk changed reply
      rcases ih hrest (hstep.coherent changed reply hresult) with ⟨hcoherent, hflat, hreplies⟩
      exact ⟨hcoherent, hflat, congrArg (Except.ok reply :: ·) hreplies⟩

/-! ## Finding -/

theorem restrict_strip_of_dot {α : Type} {segment : String} (hdot : '.' ∈ segment.toList)
    (kind : ResourceKind) (space : Namespace α) :
    space.restrict (kind.strip segment) = .empty := by
  apply Namespace.ext_entries
  apply List.filterMap_eq_nil_iff.mpr
  intro entry _
  cases hstrip : kind.strip segment entry.1 with
  | none => exact Namespace.stripEntry_eq_none hstrip
  | some rest => exact absurd hdot (ResourceKind.eq_key_of_strip hstrip).1

-- No sub-catalog of a coherent tree has a full stop in its name.
theorem Coherent.descend?_eq_none {path : List String}
    (hdot : ∃ segment ∈ path, '.' ∈ segment.toList) {catalog : Catalog} (h : Coherent catalog) :
    catalog.descend? path = none := by
  induction path generalizing catalog with
  | nil =>
    rcases hdot with ⟨_, hmem, _⟩
    cases hmem
  | cons segment rest ih =>
    rw [descend?]
    cases hsub : catalog.subCatalog? segment with
    | none => rfl
    | some sub =>
      rcases hdot with ⟨dotted, hmem, hdotted⟩
      rcases List.mem_cons.mp hmem with rfl | hmem
      · rcases h.mirrored.holding dotted sub hsub with ⟨kind, hkind⟩
        have hfold := Name.dot_mem_fold_iff.mpr hdotted
        rw [h.mirrored.restricted dotted sub hsub kind, restrict_strip_of_dot hfold] at hkind
        exact absurd rfl hkind
      · exact ih ⟨dotted, hmem, hdotted⟩ (h.sub hsub)

-- A full stop before the last segment finds nothing on either side; otherwise the node at the path
-- sees the part of the root below it.
theorem find_flat (kind : ResourceKind) {path : List String}
    (hpath : ∀ segment ∈ path, Name.SigmaFree segment) {catalog : Catalog}
    (h : Coherent catalog) : catalog.find kind path = catalog.flat.find kind path := by
  rcases List.eq_nil_or_concat path with rfl | ⟨front, last, rfl⟩
  · rfl
  rw [List.concat_eq_append] at hpath ⊢
  have hlast : Name.SigmaFree last := hpath last (by simp)
  have hfront : ∀ segment ∈ front, Name.SigmaFree segment := fun segment hsegment =>
    hpath segment (by simp [hsegment])
  rw [find_eq, FlatCatalog.find, List.dropLast_concat]
  by_cases hdot : ∃ segment ∈ front, '.' ∈ segment.toList
  · have hany : front.any (·.toList.contains '.') = true := by
      simpa using hdot
    rw [if_pos (Or.inr hany), seen?, h.descend?_eq_none hdot]
    rfl
  · have hnone : ¬ (front ++ [last] = [] ∨ front.any (·.toList.contains '.') = true) := by
      simpa using hdot
    have hplain : ∀ segment ∈ front, Name.SigmaFree segment ∧ '.' ∉ segment.toList :=
      fun segment hsegment => ⟨hfront segment hsegment, fun hmem => hdot ⟨segment, hsegment, hmem⟩⟩
    rw [if_neg hnone, h.seen?_eq (byName_selects kind) hplain hlast]
    rfl

/-- **The tree is a flat catalog.**  Operations on names without a capital sigma have the outcomes
that they have on a flat catalog; the root then holds what the flat catalog holds, in its order; and a
resource is found at a path if it is found in the flat catalog. -/
theorem runAll_refines (rootName : String) (operations : List Operation)
    (hnames : ∀ operation ∈ operations, ∀ name ∈ operation.names, Name.SigmaFree name) :
    (runAll (Operation.run true) operations (new rootName)).2 =
        (runAll FlatCatalog.run operations .empty).2 ∧
      (∀ kind, (runAll (Operation.run true) operations (new rootName)).1.resources kind =
        (runAll FlatCatalog.run operations .empty).1.resources kind) ∧
      (∀ kind path, (∀ segment ∈ path, Name.SigmaFree segment) →
        (runAll (Operation.run true) operations (new rootName)).1.find kind path =
          (runAll FlatCatalog.run operations .empty).1.find kind path) ∧
      (∀ fullName,
        (runAll (Operation.run true) operations (new rootName)).1.findFunctionByFullName fullName =
          (runAll FlatCatalog.run operations .empty).1.findFunctionByFullName fullName) := by
  -- both runs start empty, and an empty tree is coherent
  have hempty : (new rootName).flat = .empty := by
    apply congrArg FlatCatalog.mk
    funext kind
    cases kind <;> rfl
  have hroot : Coherent (new rootName) := coherent_of_isEmpty rfl
  rcases runAll_agrees hnames hroot with ⟨hcoherent, hflat, hreplies⟩
  rw [hempty] at hflat hreplies
  rw [← hflat]
  refine ⟨hreplies, fun kind => rfl, fun kind path hpath => ?_, fun fullName => rfl⟩
  exact find_flat kind hpath hcoherent

-- A table whose dotted name is taken, under another spelling, when it is created again.
theorem runAll_refines_twice :
    (∀ operation ∈ [Operation.create .createDefault .table "a.b" (Table.named "b" []),
        .create .createDefault .table "A.B" (Table.named "b" []), .delete .table "a.B"],
      ∀ name ∈ operation.names, Name.SigmaFree name) ∧
    (runAll (Operation.run true) [.create .createDefault .table "a.b" (Table.named "b" []),
        .create .createDefault .table "A.B" (Table.named "b" []), .delete .table "a.B"]
      (new "root")).2 =
      (runAll FlatCatalog.run [.create .createDefault .table "a.b" (Table.named "b" []),
        .create .createDefault .table "A.B" (Table.named "b" []), .delete .table "a.B"]
      .empty).2 := by
  have hnames : ∀ operation ∈ [Operation.create .createDefault .table "a.b" (Table.named "b" []),
        .create .createDefault .table "A.B" (Table.named "b" []), .delete .table "a.B"],
      ∀ name ∈ operation.names, Name.SigmaFree name := by
    intro operation hoperation
    simp only [List.mem_cons, List.not_mem_nil, or_false] at hoperation
    rcases hoperation with rfl | rfl | rfl
    · decide
    · decide
    · decide
  exact ⟨hnames, (runAll_refines "root" _ hnames).1⟩

end Catalog

end SchemaCatalog
