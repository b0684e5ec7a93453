import SchemaCatalog.Proofs.Catalog.Key
import SchemaCatalog.Proofs.Catalog.LocalChange
import SchemaCatalog.Proofs.Catalog.Operation

/-!
# Registrations

A create that stores its resource registers it at the places of its name, one after the other, and a
batch of creates is one long list of registrations.  Each of them fills one slot, which is a key in
the namespace of one kind at one node, and leaves all other slots as they were.
-/

namespace SchemaCatalog

/-- A resource that is to be stored at a place. -/
structure Registration where
  kind : ResourceKind
  resource : Resource kind
  place : Place

/-- Where a resource is stored: its kind, the keys of the sub-catalogs that lead to the node, and its
key at the node. -/
structure Slot where
  kind : ResourceKind
  path : List String
  key : String
deriving DecidableEq

def Registration.slot (registration : Registration) : Slot :=
  ⟨registration.kind, registration.place.catalogs.map Name.fold,
    Name.fold (registration.resource.storageKey registration.kind registration.place.name)⟩

namespace Catalog

variable {kind other : ResourceKind} {path : List String} {key : String} {catalog : Catalog}
variable {registration : Registration} {registrations : List Registration}

def perform (catalog : Catalog) (registration : Registration) : Catalog :=
  catalog.register registration.kind registration.resource registration.place

theorem perform_eq (catalog : Catalog) (registration : Registration) :
    catalog.perform registration =
      catalog.updateOrCreate
        (store registration.kind registration.resource registration.place.name)
        registration.place.catalogs := rfl

/-! ## What the node at a path holds -/

/-- The node at the end of a path, or an empty one if the path leads nowhere. -/
def nodeAt (path : List String) (catalog : Catalog) : Catalog :=
  (catalog.descend? path).getD (new "")

/-- The resource stored under a key at the end of a path. -/
def stored? (kind : ResourceKind) (path : List String) (key : String) (catalog : Catalog) :
    Option (Resource kind) :=
  ((catalog.nodeAt path).resources kind).entries.lookup key

theorem nodeAt_cons (segment : String) (path : List String) (catalog : Catalog) :
    catalog.nodeAt (segment :: path) =
      ((catalog.subCatalog? segment).getD (new "")).nodeAt path := by
  unfold nodeAt
  rw [descend?]
  cases catalog.subCatalog? segment with
  | some sub => rfl
  | none => cases path <;> rfl

theorem nodeAt_congr {other : List String} (h : path.map Name.fold = other.map Name.fold)
    (catalog : Catalog) : catalog.nodeAt path = catalog.nodeAt other := by
  induction path generalizing other catalog with
  | nil =>
    obtain rfl : other = [] := List.map_eq_nil_iff.mp h.symm
    rfl
  | cons segment path ih =>
    cases other with
    | nil => cases h
    | cons written other =>
      rw [List.map_cons, List.map_cons] at h
      injection h with hfold hpath
      rw [nodeAt_cons, nodeAt_cons, subCatalog?_congr hfold, ih hpath]

theorem occupant?_eq_stored? (resource : Resource kind) (catalog : Catalog) (place : Place) :
    catalog.occupant? kind resource place =
      catalog.stored? kind place.catalogs (Name.fold (resource.storageKey kind place.name)) := by
  unfold occupant? stored? nodeAt
  cases catalog.descend? place.catalogs with
  | some node => rfl
  | none => cases kind <;> rfl

/-! ## One registration -/

/-- A registration stores at the node of its place and leaves the other nodes as they were. -/
theorem resources_nodeAt_register (resource : Resource kind) (place : Place) (path : List String)
    (catalog : Catalog) (other : ResourceKind) :
    ((catalog.register kind resource place).nodeAt path).resources other =
      if path.map Name.fold = place.catalogs.map Name.fold then
        ((catalog.nodeAt path).store kind resource place.name).resources other
      else (catalog.nodeAt path).resources other := by
  cases place with | mk catalogs name
  induction catalogs generalizing path catalog with
  | nil =>
    cases path with
    | nil => rfl
    | cons segment path =>
      rw [if_neg (by simp), nodeAt_cons, nodeAt_cons]
      show (nodeAt path (((catalog.store kind resource name).subCatalog? segment).getD _)).resources
        other = _
      rw [(local_store kind resource name).subCatalog?]
  | cons segment catalogs ih =>
    have hbelow : catalog.register kind resource ⟨segment :: catalogs, name⟩ =
        catalog.enterOrCreate segment fun sub => sub.register kind resource ⟨catalogs, name⟩ :=
      register_below kind resource segment catalog ⟨catalogs, name⟩
    rw [hbelow]
    cases path with
    | nil =>
      rw [if_neg (by simp)]
      exact resources_enterOrCreate other segment _ catalog
    | cons written path =>
      rw [nodeAt_cons, nodeAt_cons]
      simp only [List.map_cons, List.cons.injEq]
      by_cases hfold : Name.fold written = Name.fold segment
      · rw [subCatalog?_congr hfold, subCatalog?_congr hfold, subCatalog?_enterOrCreate_self,
          Option.getD_some, ih]
        simp only [hfold, true_and]
        cases hsub : catalog.subCatalog? segment with
        | some sub => rfl
        | none =>
          -- a node that is made holds as little as one that is missing
          rw [Option.getD_none, Option.getD_none]
          cases path with
          | nil => cases kind <;> cases other <;> rfl
          | cons _ _ => rfl
      · rw [subCatalog?_enterOrCreate_of_ne hfold]
        simp only [hfold, false_and, if_false]

theorem stored?_perform_self
    (hslot : registration.slot = ⟨registration.kind, path.map Name.fold, key⟩) (catalog : Catalog) :
    (catalog.perform registration).stored? registration.kind path key =
      some registration.resource := by
  injection hslot with _ hpath hkey
  rw [stored?, perform, resources_nodeAt_register, if_pos hpath.symm, resources_store,
    Namespace.lookup_insert, if_pos hkey.symm]

theorem stored?_perform_of_ne (hslot : registration.slot ≠ ⟨kind, path.map Name.fold, key⟩)
    (catalog : Catalog) :
    (catalog.perform registration).stored? kind path key = catalog.stored? kind path key := by
  rw [stored?, perform, resources_nodeAt_register]
  split
  · rename_i hpath
    by_cases hkind : kind = registration.kind
    · subst hkind
      have hkey : key ≠ Name.fold
          (registration.resource.storageKey registration.kind registration.place.name) := by
        rintro rfl
        exact hslot (by rw [Registration.slot, hpath])
      rw [resources_store, Namespace.lookup_insert, if_neg hkey]
      rfl
    · rw [store, resources_withResources_of_ne hkind]
      rfl
  · rfl

/-! ## A list of registrations -/

theorem isSome_stored?_foldl_perform :
    ((registrations.foldl perform catalog).stored? kind path key).isSome = true ↔
      (catalog.stored? kind path key).isSome = true ∨
        ⟨kind, path.map Name.fold, key⟩ ∈ registrations.map Registration.slot := by
  induction registrations generalizing catalog with
  | nil => simp
  | cons registration rest ih =>
    rw [List.foldl_cons, ih, List.map_cons, List.mem_cons, ← or_assoc]
    refine or_congr_left ?_
    by_cases hslot : registration.slot = ⟨kind, path.map Name.fold, key⟩
    · obtain rfl : registration.kind = kind := congrArg Slot.kind hslot
      rw [stored?_perform_self hslot, hslot]
      simp
    · rw [stored?_perform_of_ne hslot]
      simp [Ne.symm hslot]

theorem isSome_occupant?_foldl_perform :
    ((registrations.foldl perform catalog).occupant? registration.kind registration.resource
        registration.place).isSome = true ↔
      (catalog.occupant? registration.kind registration.resource registration.place).isSome = true ∨
        registration.slot ∈ registrations.map Registration.slot := by
  rw [occupant?_eq_stored?, occupant?_eq_stored?]
  exact isSome_stored?_foldl_perform

theorem occupant?_foldl_perform_eq_none_iff :
    (registrations.foldl perform catalog).occupant? registration.kind registration.resource
        registration.place = none ↔
      catalog.occupant? registration.kind registration.resource registration.place = none ∧
        registration.slot ∉ registrations.map Registration.slot := by
  rw [← Option.not_isSome_iff_eq_none, isSome_occupant?_foldl_perform, not_or,
    Option.not_isSome_iff_eq_none]

/-- The slots of the registrations are free and different. -/
structure Vacant (registrations : List Registration) (catalog : Catalog) : Prop where
  free : ∀ registration ∈ registrations,
    catalog.occupant? registration.kind registration.resource registration.place = none
  distinct : (registrations.map Registration.slot).Nodup

theorem vacant_append_iff {first second : List Registration} :
    Vacant (first ++ second) catalog ↔
      Vacant first catalog ∧ Vacant second (first.foldl perform catalog) := by
  constructor
  · rintro ⟨hfree, hdistinct⟩
    rw [List.map_append, List.nodup_append] at hdistinct
    refine ⟨⟨fun registration h => hfree registration (List.mem_append_left _ h), hdistinct.1⟩,
      ⟨fun registration h => ?_, hdistinct.2.1⟩⟩
    have hbefore := hfree registration (List.mem_append_right _ h)
    exact occupant?_foldl_perform_eq_none_iff.mpr
      ⟨hbefore, fun hslot => hdistinct.2.2 _ hslot _ (List.mem_map_of_mem h) rfl⟩
  · rintro ⟨⟨hfirst, hdistinct⟩, ⟨hsecond, hothers⟩⟩
    constructor
    · intro registration h
      rcases List.mem_append.mp h with h | h
      · exact hfirst registration h
      · exact (occupant?_foldl_perform_eq_none_iff.mp (hsecond registration h)).1
    · rw [List.map_append, List.nodup_append]
      refine ⟨hdistinct, hothers, ?_⟩
      rintro slot hslot _ hother rfl
      rcases List.mem_map.mp hother with ⟨registration, h, rfl⟩
      exact (occupant?_foldl_perform_eq_none_iff.mp (hsecond registration h)).2 hslot

theorem Vacant.of_cons (h : Vacant (registration :: registrations) catalog) :
    catalog.occupant? registration.kind registration.resource registration.place = none ∧
      Vacant registrations (catalog.perform registration) := by
  have happend : Vacant ([registration] ++ registrations) catalog := h
  exact ⟨h.free registration List.mem_cons_self, (vacant_append_iff.mp happend).2⟩

theorem stored?_eq_none_of_slot
    (hfree : catalog.occupant? registration.kind registration.resource registration.place = none)
    (hslot : registration.slot = ⟨kind, path.map Name.fold, key⟩) :
    catalog.stored? kind path key = none := by
  cases registration with | mk stored resource place
  injection hslot with hkind hpath hkey
  obtain rfl : stored = kind := hkind
  rw [occupant?_eq_stored?, stored?, nodeAt_congr hpath] at hfree
  rw [stored?, ← hkey]
  exact hfree

theorem stored?_perform_eq_some_iff
    (hfree : catalog.occupant? registration.kind registration.resource registration.place = none)
    {value : Resource kind} :
    (catalog.perform registration).stored? kind path key = some value ↔
      catalog.stored? kind path key = some value ∨
        ∃ place, registration = ⟨kind, value, place⟩ ∧
          registration.slot = ⟨kind, path.map Name.fold, key⟩ := by
  by_cases hslot : registration.slot = ⟨kind, path.map Name.fold, key⟩
  · rw [stored?_eq_none_of_slot hfree hslot]
    cases registration with | mk stored resource place
    obtain rfl : stored = kind := congrArg Slot.kind hslot
    rw [stored?_perform_self hslot]
    simp [hslot]
  · rw [stored?_perform_of_ne hslot]
    simp [hslot]

/-- After registrations in free slots a resource is stored if it was before or if one of them
stored it. -/
theorem Vacant.stored?_eq_some_iff (h : Vacant registrations catalog) {value : Resource kind} :
    (registrations.foldl perform catalog).stored? kind path key = some value ↔
      catalog.stored? kind path key = some value ∨
        ∃ registration ∈ registrations, ∃ place, registration = ⟨kind, value, place⟩ ∧
          registration.slot = ⟨kind, path.map Name.fold, key⟩ := by
  induction registrations generalizing catalog with
  | nil => simp
  | cons registration rest ih =>
    rw [List.foldl_cons, ih h.of_cons.2, stored?_perform_eq_some_iff h.of_cons.1, or_assoc]
    simp only [List.mem_cons, exists_eq_or_imp]

theorem implicitAt_foldl_perform (registrations : List Registration) (path : List String)
    (catalog : Catalog) :
    (registrations.foldl perform catalog).implicitAt path =
      (catalog.implicitAt path).or
        (if ∃ registration ∈ registrations,
            path.map Name.fold <+: registration.place.catalogs.map Name.fold
          then some true else none) := by
  induction registrations generalizing catalog with
  | nil => simp
  | cons registration rest ih =>
    rw [List.foldl_cons, ih, perform_eq, implicitAt_updateOrCreate (local_store _ _ _)]
    simp only [List.mem_cons, exists_eq_or_imp]
    by_cases hpath : path.map Name.fold <+: registration.place.catalogs.map Name.fold
    · simp only [hpath, true_or, if_true, Option.or_assoc, Option.some_or]
    · simp only [hpath, false_or, if_false, Option.or_none]

end Catalog

/-! ## Creates as registrations -/

namespace NamedResource

/-- What a create of the resource registers if it stores it. -/
def registrations (nested : Bool) (request : NamedResource) : List Registration :=
  (Place.splits (Place.chain nested request.name)).map fun place =>
    ⟨request.kind, request.resource, place⟩

/-- No segment of the name is blank, and the resource may be stored. -/
def Valid (request : NamedResource) : Prop :=
  (Name.segments request.name).any Text.isBlank = false ∧
    request.resource.validate request.kind = .ok ()

end NamedResource

namespace Catalog

variable {nested : Bool} {mode : CreateMode} {request : NamedResource} {created : Catalog}

/-- The resource that a create finds at the first of its places that is taken. -/
def existing? (nested : Bool) (request : NamedResource) (catalog : Catalog) :
    Option (Resource request.kind) :=
  (Place.splits (Place.chain nested request.name)).findSome?
    (catalog.occupant? request.kind request.resource)

theorem foldl_perform_registrations (nested : Bool) (request : NamedResource) (catalog : Catalog) :
    (request.registrations nested).foldl perform catalog =
      (Place.splits (Place.chain nested request.name)).foldl
        (register request.kind request.resource) catalog := by
  rw [NamedResource.registrations, List.foldl_map]
  rfl

theorem ofName_eq_ok_iff {name : String} {places : List Place} :
    Place.ofName nested name = .ok places ↔
      (Name.segments name).any Text.isBlank = false ∧
        places = Place.splits (Place.chain nested name) := by
  rw [Place.ofName_eq]
  cases (Name.segments name).any Text.isBlank <;> simp [eq_comm]

theorem create_request_eq_ok_iff {stored : Resource request.kind} :
    catalog.create nested mode request.kind request.name request.resource = .ok (created, stored) ↔
      request.Valid ∧
        ((mode = .createIfNotExists ∧ catalog.existing? nested request = some stored ∧
            catalog = created) ∨
          ((catalog.existing? nested request = none ∨ mode = .createOrReplace) ∧
            request.resource = stored ∧
            (request.registrations nested).foldl perform catalog = created)) := by
  rw [create_eq_ok_iff, foldl_perform_registrations]
  constructor
  · rintro ⟨places, hplaces, hvalid, hcases⟩
    obtain ⟨hname, rfl⟩ := ofName_eq_ok_iff.mp hplaces
    exact ⟨⟨hname, hvalid⟩, hcases⟩
  · rintro ⟨⟨hname, hvalid⟩, hcases⟩
    exact ⟨_, ofName_eq_ok_iff.mpr ⟨hname, rfl⟩, hvalid, hcases⟩

-- The places of a name are at different depths.
theorem nodup_slots (nested : Bool) (request : NamedResource) :
    ((request.registrations nested).map Registration.slot).Nodup := by
  have hdepths : (Place.splits (Place.chain nested request.name)).map (·.catalogs.length) =
      List.range (Place.chain nested request.name).length := by
    rw [Place.splits, List.map_map]
    refine (List.map_congr_left fun count hcount => ?_).trans (List.map_id _)
    exact List.length_take_of_le (Nat.le_of_lt (List.mem_range.mp hcount))
  have hslots : ((request.registrations nested).map Registration.slot).map (·.path.length) =
      List.range (Place.chain nested request.name).length := by
    rw [← hdepths, NamedResource.registrations, List.map_map, List.map_map]
    refine List.map_congr_left fun place _ => ?_
    exact List.length_map _
  refine List.Pairwise.of_map (S := (· ≠ ·)) (·.path.length) (fun _ _ hne heq => hne (heq ▸ rfl)) ?_
  rw [hslots]
  exact List.nodup_range

theorem existing?_eq_none_iff :
    catalog.existing? nested request = none ↔ Vacant (request.registrations nested) catalog := by
  rw [existing?, List.findSome?_eq_none_iff]
  constructor
  · intro hfree
    refine ⟨fun registration h => ?_, nodup_slots nested request⟩
    rcases List.mem_map.mp h with ⟨place, hplace, rfl⟩
    exact hfree place hplace
  · intro hvacant place hplace
    exact hvacant.free ⟨request.kind, request.resource, place⟩ (List.mem_map_of_mem hplace)

end Catalog

end SchemaCatalog
