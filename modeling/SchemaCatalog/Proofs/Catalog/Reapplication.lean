import SchemaCatalog.Proofs.Catalog.Registration

/-!
# Applying a batch again

Of several registrations in one slot the last one counts, for the resource as well as for its place in
the order.  So where the nodes of a batch are there, a registration makes all its earlier occurrences
void, and a batch done twice is the batch done once.  A batch that keeps what is there finds a place of
every name taken when it comes again.
-/

namespace SchemaCatalog.Catalog

variable {kind other : ResourceKind} {catalog : Catalog} {first second : Registration}
variable {registrations : List Registration}

/-! ## Storing over a resource -/

theorem store_store (resource : Resource kind) (name : String) (node : Catalog) :
    (node.store kind resource name).store kind resource name = node.store kind resource name := by
  rw [store, store, resources_withResources, withResources_withResources]
  congr 1
  apply Namespace.ext_entries
  rw [Namespace.insert, Namespace.erase_insert]
  rfl

theorem store_comm (hne : kind ≠ other) (resource : Resource kind) (another : Resource other)
    (name written : String) (node : Catalog) :
    (node.store kind resource name).store other another written =
      (node.store other another written).store kind resource name := by
  cases kind <;> cases other <;> first | exact absurd rfl hne | rfl

theorem store_store_store (resource : Resource kind) (another : Resource other)
    (name written : String) (node : Catalog) :
    ((node.store kind resource name).store other another written).store kind resource name =
      (node.store other another written).store kind resource name := by
  by_cases hkind : kind = other
  · subst hkind
    simp only [store, resources_withResources, withResources_withResources,
      Namespace.insert_insert_insert]
  · rw [store_comm hkind, store_store]

/-! ## Registering over a registration -/

theorem perform_perform (catalog : Catalog) (registration : Registration) :
    (catalog.perform registration).perform registration = catalog.perform registration := by
  rw [perform_eq, perform_eq, updateOrCreate_updateOrCreate rfl]
  congr 1
  funext node
  exact store_store _ _ node

theorem isSome_descend?_perform {path : List String} (hnode : (catalog.descend? path).isSome = true)
    (registration : Registration) :
    ((catalog.perform registration).descend? path).isSome = true :=
  isSome_descend?_updateOrCreate (local_store _ _ _) hnode _

theorem perform_perform_perform (hnode : (catalog.descend? first.place.catalogs).isSome = true)
    (second : Registration) :
    ((catalog.perform first).perform second).perform first =
      (catalog.perform second).perform first := by
  simp only [perform_eq]
  by_cases hpath : first.place.catalogs.map Name.fold = second.place.catalogs.map Name.fold
  · rw [updateOrCreate_updateOrCreate hpath, updateOrCreate_updateOrCreate rfl,
      updateOrCreate_updateOrCreate hpath.symm, ← updateOrCreate_congr hpath hnode]
    congr 1
    funext node
    exact store_store_store _ _ _ _ node
  · rw [updateOrCreate_comm (local_store _ _ _) (local_store _ _ _) hnode hpath]
    exact perform_perform _ first

-- The earlier of two equal registrations is void, whatever is registered between them.
theorem perform_foldl_perform (hnode : (catalog.descend? first.place.catalogs).isSome = true)
    (registrations : List Registration) :
    (registrations.foldl perform (catalog.perform first)).perform first =
      (registrations.foldl perform catalog).perform first := by
  induction registrations generalizing catalog with
  | nil => exact perform_perform catalog first
  | cons second rest ih =>
    have hafter := isSome_descend?_perform hnode second
    have hbetween := isSome_descend?_perform (isSome_descend?_perform hnode first) second
    rw [List.foldl_cons, List.foldl_cons, ← ih hbetween, perform_perform_perform hnode, ih hafter]

theorem foldl_perform_of_subset {registrations : List Registration}
    (hnodes : ∀ registration ∈ registrations,
      (catalog.descend? registration.place.catalogs).isSome = true)
    {earlier : List Registration} (hsubset : ∀ registration ∈ earlier, registration ∈ registrations) :
    registrations.foldl perform (earlier.foldl perform catalog) =
      registrations.foldl perform catalog := by
  induction earlier generalizing catalog with
  | nil => rfl
  | cons first rest ih =>
    have hfirst := hsubset first List.mem_cons_self
    have hafter : ∀ registration ∈ registrations,
        ((catalog.perform first).descend? registration.place.catalogs).isSome = true :=
      fun registration h => isSome_descend?_perform (hnodes registration h) first
    have hrest : ∀ registration ∈ rest, registration ∈ registrations :=
      fun registration h => hsubset registration (List.mem_cons_of_mem _ h)
    rw [List.foldl_cons, ih hafter hrest]
    -- the registration comes again in the list, and that makes the earlier one void
    rcases List.append_of_mem hfirst with ⟨front, back, rfl⟩
    rw [List.foldl_append, List.foldl_append, List.foldl_cons, List.foldl_cons,
      perform_foldl_perform (hnodes first hfirst)]

/-! ## Nodes first

A registration that makes nodes does not commute with another that makes nodes beside them.  So the
nodes of a list are made before all of its registrations, in the order in which these would make them.
-/

/-- Makes the nodes of the registrations, in their order. -/
def prepare (registrations : List Registration) (catalog : Catalog) : Catalog :=
  registrations.foldl (fun catalog registration => catalog.ensurePath registration.place.catalogs)
    catalog

theorem perform_ensurePath (catalog : Catalog) (registration : Registration) :
    (catalog.ensurePath registration.place.catalogs).perform registration =
      catalog.perform registration := by
  rw [perform_eq, ensurePath, updateOrCreate_updateOrCreate rfl]
  rfl

theorem ensurePath_perform (hnode : (catalog.descend? first.place.catalogs).isSome = true)
    (path : List String) :
    (catalog.perform first).ensurePath path = (catalog.ensurePath path).perform first := by
  simp only [perform_eq, ensurePath]
  by_cases hpath : first.place.catalogs.map Name.fold = path.map Name.fold
  · rw [updateOrCreate_updateOrCreate hpath, updateOrCreate_updateOrCreate hpath.symm,
      ← updateOrCreate_congr hpath hnode]
    rfl
  · exact updateOrCreate_comm (local_store _ _ _) local_id hnode hpath

theorem prepare_perform (hnode : (catalog.descend? first.place.catalogs).isSome = true)
    (registrations : List Registration) :
    prepare registrations (catalog.perform first) =
      (prepare registrations catalog).perform first := by
  induction registrations generalizing catalog with
  | nil => rfl
  | cons second rest ih =>
    have hafter : ((catalog.ensurePath second.place.catalogs).descend?
        first.place.catalogs).isSome = true := isSome_descend?_updateOrCreate local_id hnode _
    rw [prepare, List.foldl_cons, ensurePath_perform hnode]
    exact ih hafter

theorem isSome_descend?_ensurePath (path : List String) (catalog : Catalog) :
    ((catalog.ensurePath path).descend? path).isSome = true := by
  have hafter := congrArg Option.isSome (implicitAt_updateOrCreate local_id path path catalog)
  rw [if_pos (List.prefix_refl _)] at hafter
  simp only [implicitAt, Option.isSome_map, Option.isSome_or, Option.isSome_some,
    Bool.or_true] at hafter
  exact hafter

theorem isSome_descend?_prepare {path : List String} (hnode : (catalog.descend? path).isSome = true)
    (registrations : List Registration) :
    ((prepare registrations catalog).descend? path).isSome = true := by
  induction registrations generalizing catalog with
  | nil => exact hnode
  | cons second rest ih => exact ih (isSome_descend?_updateOrCreate local_id hnode _)

theorem isSome_descend?_prepare_of_mem {registration : Registration}
    (h : registration ∈ registrations) (catalog : Catalog) :
    ((prepare registrations catalog).descend? registration.place.catalogs).isSome = true := by
  induction registrations generalizing catalog with
  | nil => cases h
  | cons second rest ih =>
    rcases List.mem_cons.mp h with rfl | h
    · exact isSome_descend?_prepare (isSome_descend?_ensurePath _ catalog) rest
    · exact ih h _

theorem foldl_perform_prepare (registrations : List Registration) (catalog : Catalog) :
    registrations.foldl perform (prepare registrations catalog) =
      registrations.foldl perform catalog := by
  induction registrations generalizing catalog with
  | nil => rfl
  | cons first rest ih =>
    have hnode := isSome_descend?_ensurePath first.place.catalogs catalog
    show rest.foldl perform
      ((prepare rest (catalog.ensurePath first.place.catalogs)).perform first) = _
    rw [← prepare_perform hnode, ih, perform_ensurePath, List.foldl_cons]

/-- **A list of registrations done twice is the list done once**, down to the order of the entries and
of the nodes. -/
theorem foldl_perform_foldl_perform (registrations : List Registration) (catalog : Catalog) :
    registrations.foldl perform (registrations.foldl perform catalog) =
      registrations.foldl perform catalog := by
  rw [← foldl_perform_prepare registrations catalog]
  exact foldl_perform_of_subset
    (fun registration h => isSome_descend?_prepare_of_mem h catalog) fun _ h => h

/-! ## Batches -/

variable {nested : Bool} {mode : CreateMode} {requests : List NamedResource}
variable {definitions : Definitions} {created applied : Catalog}

theorem createAll_createOrReplace_eq_ok_iff :
    catalog.createAll nested .createOrReplace requests = .ok created ↔
      (∀ request ∈ requests, request.Valid) ∧
        (requests.flatMap (·.registrations nested)).foldl perform catalog = created := by
  induction requests generalizing catalog with
  | nil => simp [createAll]
  | cons request rest ih =>
    rw [createAll_cons_eq_ok_iff, List.flatMap_cons, List.foldl_append, List.forall_mem_cons]
    constructor
    · rintro ⟨next, stored, hcreate, hrest⟩
      rcases create_request_eq_ok_iff.mp hcreate with ⟨hvalid, ⟨hmode, -⟩ | ⟨-, -, rfl⟩⟩
      · cases hmode
      · exact ⟨⟨hvalid, (ih.mp hrest).1⟩, (ih.mp hrest).2⟩
    · rintro ⟨⟨hvalid, hvalids⟩, hcreated⟩
      exact ⟨_, request.resource,
        create_request_eq_ok_iff.mpr ⟨hvalid, Or.inr ⟨Or.inr rfl, rfl, rfl⟩⟩,
        ih.mpr ⟨hvalids, hcreated⟩⟩

-- A batch leaves nothing but registrations, whatever its mode.
theorem exists_registrations_of_createAll
    (h : catalog.createAll nested mode requests = .ok created) :
    ∃ performed : List Registration, performed.foldl perform catalog = created := by
  induction requests generalizing catalog with
  | nil =>
    cases h
    exact ⟨[], rfl⟩
  | cons request rest ih =>
    rcases createAll_cons_eq_ok_iff.mp h with ⟨next, stored, hcreate, hrest⟩
    rcases ih hrest with ⟨performed, hperformed⟩
    rcases create_request_eq_ok_iff.mp hcreate with ⟨-, ⟨-, -, rfl⟩ | ⟨-, -, rfl⟩⟩
    · exact ⟨performed, hperformed⟩
    · exact ⟨request.registrations nested ++ performed, by rw [List.foldl_append, hperformed]⟩

theorem isSome_existing?_iff {request : NamedResource} :
    (catalog.existing? nested request).isSome = true ↔
      ∃ registration ∈ request.registrations nested,
        (catalog.occupant? registration.kind registration.resource registration.place).isSome := by
  rw [existing?, List.findSome?_isSome_iff]
  constructor
  · rintro ⟨place, hplace, htaken⟩
    exact ⟨⟨request.kind, request.resource, place⟩, List.mem_map_of_mem hplace, htaken⟩
  · rintro ⟨registration, hmem, htaken⟩
    rcases List.mem_map.mp hmem with ⟨place, hplace, rfl⟩
    exact ⟨place, hplace, htaken⟩

theorem isSome_existing?_foldl_perform {request : NamedResource}
    (h : (catalog.existing? nested request).isSome = true) (performed : List Registration) :
    ((performed.foldl perform catalog).existing? nested request).isSome = true := by
  rw [isSome_existing?_iff] at h ⊢
  rcases h with ⟨registration, hmem, htaken⟩
  exact ⟨registration, hmem, isSome_occupant?_foldl_perform.mpr (Or.inl htaken)⟩

theorem isSome_existing?_foldl_registrations (request : NamedResource) (catalog : Catalog) :
    (((request.registrations nested).foldl perform catalog).existing? nested request).isSome =
      true := by
  have hmem : ⟨request.kind, request.resource, ⟨[], request.name⟩⟩ ∈ request.registrations nested :=
    List.mem_map_of_mem (Place.flat_mem_splits_chain nested request.name)
  rw [isSome_existing?_iff]
  exact ⟨_, hmem, isSome_occupant?_foldl_perform.mpr (Or.inr (List.mem_map_of_mem hmem))⟩

theorem existing_of_createAll (h : catalog.createAll nested mode requests = .ok created) :
    ∀ request ∈ requests, request.Valid ∧ (created.existing? nested request).isSome = true := by
  induction requests generalizing catalog with
  | nil => simp
  | cons request rest ih =>
    rcases createAll_cons_eq_ok_iff.mp h with ⟨next, stored, hcreate, hrest⟩
    rcases exists_registrations_of_createAll hrest with ⟨performed, rfl⟩
    rw [List.forall_mem_cons]
    refine ⟨?_, ih hrest⟩
    rcases create_request_eq_ok_iff.mp hcreate with ⟨hvalid, ⟨-, hfound, rfl⟩ | ⟨-, -, rfl⟩⟩
    · exact ⟨hvalid, isSome_existing?_foldl_perform (by rw [hfound]; rfl) performed⟩
    · exact ⟨hvalid, isSome_existing?_foldl_perform
        (isSome_existing?_foldl_registrations request catalog) performed⟩

theorem createAll_createIfNotExists_eq_self
    (h : ∀ request ∈ requests, request.Valid ∧ (catalog.existing? nested request).isSome = true) :
    catalog.createAll nested .createIfNotExists requests = .ok catalog := by
  induction requests with
  | nil => rfl
  | cons request rest ih =>
    rw [List.forall_mem_cons] at h
    rcases Option.isSome_iff_exists.mp h.1.2 with ⟨stored, hfound⟩
    exact createAll_cons_eq_ok_iff.mpr ⟨catalog, stored,
      create_request_eq_ok_iff.mpr ⟨h.1.1, Or.inl ⟨rfl, hfound, rfl⟩⟩, ih h.2⟩

/-- **Applying a batch again changes nothing**, unless the mode is to fail on names that are taken.
The batch may repeat names, and its names may lead through the same nodes. -/
theorem applyDefinitions_applyDefinitions (hmode : mode ≠ .createDefault)
    (happlied : catalog.applyDefinitions nested mode definitions = .ok applied) :
    applied.applyDefinitions nested mode definitions = .ok applied := by
  rcases applyDefinitions_eq_ok_iff.mp happlied with ⟨requests, hrequests, hcreate⟩
  refine applyDefinitions_eq_ok_iff.mpr ⟨requests, hrequests, ?_⟩
  cases mode with
  | createDefault => exact absurd rfl hmode
  | createOrReplace =>
    rcases createAll_createOrReplace_eq_ok_iff.mp hcreate with ⟨hvalid, rfl⟩
    exact createAll_createOrReplace_eq_ok_iff.mpr ⟨hvalid, foldl_perform_foldl_perform _ catalog⟩
  | createIfNotExists => exact createAll_createIfNotExists_eq_self (existing_of_createAll hcreate)

-- The third table replaces the first and so comes after the second, at the root and below it.
theorem applyDefinitions_applyDefinitions_displaced :
    ∃ applied,
      (new "root").applyDefinitions true .createOrReplace
        ⟨[⟨"a.t", []⟩, ⟨"a.u", []⟩, ⟨"A.T", []⟩], [], [], []⟩ = .ok applied ∧
      applied.applyDefinitions true .createOrReplace
        ⟨[⟨"a.t", []⟩, ⟨"a.u", []⟩, ⟨"A.T", []⟩], [], [], []⟩ = .ok applied ∧
      applied.tables.keys = ["a.u", "a.t"] := by
  have hrequests : (⟨[⟨"a.t", []⟩, ⟨"a.u", []⟩, ⟨"A.T", []⟩], [], [], []⟩ : Definitions).resources =
      .ok [⟨.table, "a.t", ⟨"t", "a.t", []⟩⟩, ⟨.table, "a.u", ⟨"u", "a.u", []⟩⟩,
        ⟨.table, "A.T", ⟨"T", "A.T", []⟩⟩] := by
    rfl
  have hcreate := (@createAll_createOrReplace_eq_ok_iff (new "root") true
    [⟨.table, "a.t", ⟨"t", "a.t", []⟩⟩, ⟨.table, "a.u", ⟨"u", "a.u", []⟩⟩,
      ⟨.table, "A.T", ⟨"T", "A.T", []⟩⟩] _).mpr
    ⟨by simp only [List.forall_mem_cons]; exact ⟨⟨rfl, rfl⟩, ⟨rfl, rfl⟩, ⟨rfl, rfl⟩, by simp⟩, rfl⟩
  have happlied := applyDefinitions_eq_ok_iff.mpr ⟨_, hrequests, hcreate⟩
  exact ⟨_, happlied, applyDefinitions_applyDefinitions (by decide) happlied, by rfl⟩

end SchemaCatalog.Catalog
