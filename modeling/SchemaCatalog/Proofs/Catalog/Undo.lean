import SchemaCatalog.Proofs.Catalog.Built
import SchemaCatalog.Proofs.Catalog.Key

/-!
# A delete undoes a create

A create under a free name makes the nodes that are missing on its chain; the matching delete leaves
exactly these implicit and empty again.  Nodes that were there before are put back as they were, so
the tree is the old one down to the order of its entries.
-/

namespace SchemaCatalog.Catalog

/-- Deletes a resource by the name it was created under; a function is deleted in its group. -/
def deleteCreated (nested : Bool) (name : String) :
    (kind : ResourceKind) → Resource kind → Catalog → Except CatalogError Catalog
  | .function, function, catalog =>
    catalog.deleteFunctionByFullName nested (Name.qualify function.group name)
  | kind, _, catalog => catalog.delete nested kind name

theorem deleteCreated_eq {nested : Bool} {name : String} {kind : ResourceKind}
    {resource : Resource kind} (hvalid : resource.validate kind = .ok ()) (catalog : Catalog) :
    ∃ identity, catalog.deleteCreated nested name kind resource =
      catalog.deleteSelected nested kind identity name (ownKey kind resource) := by
  cases kind with
  | table => exact ⟨name, rfl⟩
  | function =>
    refine ⟨Name.qualify resource.group name, ?_⟩
    exact deleteFunctionByFullName_qualify (colon_notMem_group hvalid) nested name catalog
  | procedure => exact ⟨name, rfl⟩
  | tableFunction => exact ⟨name, rfl⟩

variable {kind : ResourceKind} {resource : Resource kind}

/-! ## One node -/

-- The key must be free: an insertion over an old entry would lose it and its place in the order.
theorem discard_store {node : Catalog} {name : String}
    (hfree : (node.resources kind).get? (resource.storageKey kind name) = none) :
    (node.store kind resource name).discard kind (ownKey kind resource) name = node := by
  have herase : ((node.resources kind).insert (resource.storageKey kind name) resource).removeWhere
      (ownKey kind resource name) = node.resources kind := by
    show ((node.resources kind).insert (resource.storageKey kind name) resource).erase
      (resource.storageKey kind name) = _
    rw [Namespace.erase_insert, Namespace.erase_of_get?_eq_none hfree]
  rw [discard, store, resources_withResources, herase, withResources_withResources,
    withResources_resources]

theorem discard_enterOrCreate (selects : Selection) (name segment : String)
    (change : Catalog → Catalog) (catalog : Catalog) :
    (catalog.enterOrCreate segment change).discard kind selects name =
      (catalog.discard kind selects name).enterOrCreate segment change := by
  have hsame : (catalog.discard kind selects name).subCatalog? segment =
      catalog.subCatalog? segment := by
    cases kind <;> rfl
  unfold enterOrCreate
  rw [hsame]
  cases catalog.subCatalog? segment <;> cases kind <;> rfl

-- A sub-catalog that comes back as it was stays, and one that was made goes.
theorem enterAndPrune_enterOrCreate {catalog : Catalog} {segment : String}
    {change back : Catalog → Catalog} (hkeys : catalog.catalogs.keys.Nodup)
    (hold : ∀ sub, catalog.subCatalog? segment = some sub →
      back (change sub) = sub ∧ (sub.implicit = true → sub.isEmpty = false))
    (hnew : back (change (newImplicit segment)) = newImplicit segment) :
    (catalog.enterOrCreate segment change).enterAndPrune segment back = catalog := by
  cases hsub : catalog.subCatalog? segment with
  | some sub =>
    -- it is replaced in its place twice, and not pruned, as it was not implicit and empty before
    rcases hold sub hsub with ⟨hback, htidy⟩
    have hafter := subCatalog?_replace_self (change sub) hsub
    have hstays : (sub.implicit && sub.isEmpty) = false := by
      cases himplicit : sub.implicit with
      | false => rfl
      | true => rw [htidy himplicit, Bool.and_false]
    have hself : catalog.catalogs.replace segment sub = catalog.catalogs :=
      Namespace.replace_self hkeys hsub
    simp only [enterOrCreate, hsub, enterAndPrune, hafter, hback, hstays,
      Namespace.replace_replace, hself, Bool.false_eq_true, if_false]
    cases catalog
    rfl
  | none =>
    -- it was inserted last, so that its removal restores the order
    have hafter := subCatalog?_insert_self catalog (change (newImplicit segment)) segment
    have hgoes : ((newImplicit segment).implicit && (newImplicit segment).isEmpty) = true := rfl
    have herase : (catalog.catalogs.insert segment (change (newImplicit segment))).erase segment =
        catalog.catalogs := by
      rw [Namespace.erase_insert, Namespace.erase_of_get?_eq_none hsub]
    simp only [enterOrCreate, hsub, enterAndPrune, hafter, hnew, hgoes, if_true, removeSubCatalog,
      herase]
    cases catalog
    rfl

/-! ## The whole chain -/

/-- No implicit node is empty, except perhaps the root. -/
def TidyBelow (catalog : Catalog) : Prop :=
  ∀ name sub, catalog.subCatalog? name = some sub →
    sub.Everywhere fun node => node.implicit = true → node.isEmpty = false

theorem tidyBelow_of_everywhere {catalog : Catalog}
    (h : catalog.Everywhere fun node => node.implicit = true → node.isEmpty = false) :
    catalog.TidyBelow :=
  (everywhere_iff.mp h).2

theorem unregisterAlong_registerAlong {segments : List String} {catalog : Catalog}
    (hkeys : catalog.DistinctSubs) (htidy : catalog.TidyBelow)
    (hfree : ∀ place ∈ Place.splits segments,
      catalog.seen? kind (ownKey kind resource) place = none) :
    (catalog.registerAlong kind resource segments).unregisterAlong kind (ownKey kind resource)
      segments = catalog := by
  induction segments generalizing catalog with
  | nil => rfl
  | cons segment rest ih =>
    rw [Place.splits_cons] at hfree
    have hroot : (catalog.resources kind).get?
        (resource.storageKey kind (Name.dotted (segment :: rest))) = none := by
      rw [Namespace.get?_eq_find?]
      exact hfree _ List.mem_cons_self
    have hbelow : ∀ place ∈ Place.splits rest,
        catalog.seen? kind (ownKey kind resource) (place.below segment) = none :=
      fun place hplace =>
        hfree _ (List.mem_cons_of_mem _ (List.mem_map_of_mem hplace))
    cases rest with
    | nil =>
      rw [Name.dotted_singleton] at hroot
      exact discard_store hroot
    | cons next others =>
      have hnode := everywhere_iff.mp hkeys
      -- the entry of this node goes first, and the node differs from the old one below it only
      rw [registerAlong, unregisterAlong, discard_enterOrCreate, discard_store hroot]
      apply enterAndPrune_enterOrCreate hnode.1
      · intro sub hsub
        have hsubTidy := everywhere_iff.mp (htidy segment sub hsub)
        refine ⟨ih (hnode.2 segment sub hsub) hsubTidy.2 ?_, hsubTidy.1⟩
        intro place hplace
        have hseen := hbelow place hplace
        rw [seen?_below, hsub] at hseen
        exact hseen
      · -- the node that is made has nothing below it, so the induction applies to it as well
        have hempty : (newImplicit segment).isEmpty = true := rfl
        apply ih (stable_distinctSubs.empty segment true)
        · intro name sub hsub
          cases hsub
        · intro place _
          exact seen?_of_isEmpty hempty place

/-- **A delete right after a create gives the old catalog back.** -/
theorem deleteCreated_of_create {catalog created : Catalog} {nested : Bool} {name : String}
    {stored : Resource kind} (hbuilt : Built catalog)
    (htidy : catalog.Everywhere fun node => node.implicit = true → node.isEmpty = false)
    (hcreate : catalog.create nested .createDefault kind name resource = .ok (created, stored)) :
    created.deleteCreated nested name kind resource = .ok catalog := by
  rcases create_eq_ok_iff.mp hcreate with ⟨places, hplaces, hvalid, ⟨hmode, -⟩ | hcreated⟩
  · cases hmode
  have hfree : places.findSome? (catalog.occupant? kind resource) = none :=
    hcreated.1.resolve_right fun hmode => nomatch hmode
  rcases hcreated.2 with ⟨-, rfl⟩
  have hsplits : Place.splits (Place.chain nested name) = places := by
    rw [Place.ofName_eq] at hplaces
    split at hplaces
    · cases hplaces
    · cases hplaces
      rfl
  subst hsplits
  rcases deleteCreated_eq hvalid _ with ⟨identity, hdelete⟩
  rw [hdelete, deleteSelected_eq_ok_iff]
  refine ⟨_, hplaces, ?_, ?_⟩
  · -- the resource is there at the first place, the root
    cases hchain : Place.chain nested name with
    | nil => exact absurd hchain (Place.chain_ne_nil nested name)
    | cons segment rest =>
      rw [foldl_register_splits, Place.splits_cons, List.any_cons]
      have hroot : ((catalog.registerAlong kind resource (segment :: rest)).resources kind).keys.any
          (ownKey kind resource (Name.dotted (segment :: rest))) = true := by
        rw [resources_registerAlong, resources_store, List.any_eq_true]
        refine ⟨Name.fold (resource.storageKey kind (Name.dotted (segment :: rest))), ?_, ?_⟩
        · simp [Namespace.insert, Namespace.keys]
        · exact beq_self_eq_true _
      exact Bool.or_eq_true_iff.mpr (Or.inl hroot)
  · rw [foldl_register_splits, prunePlaces_foldl_unregister]
    apply unregisterAlong_registerAlong (distinctSubs_of_built hbuilt)
      (tidyBelow_of_everywhere htidy)
    intro place hplace
    rw [← occupant?_eq]
    exact List.findSome?_eq_none_iff.mp hfree place hplace

theorem deleteCreated_of_create_below_explicit :
    Built ((new "root").ensureSubCatalog "a") ∧
      ((new "root").ensureSubCatalog "a").Everywhere
        (fun node => node.implicit = true → node.isEmpty = false) ∧
      ∃ created stored,
        ((new "root").ensureSubCatalog "a").create true .createDefault .table "a.b.c"
          (Table.named "c" []) = .ok (created, stored) ∧
        created.deleteCreated true "a.b.c" .table (Table.named "c" []) =
          .ok ((new "root").ensureSubCatalog "a") := by
  have hbuilt : Built ((new "root").ensureSubCatalog "a") :=
    @Built.call _ _ _ [] (.ensureSubCatalog "a") (.new "root") rfl (fun _ h => nomatch h) rfl
  have htidy : ((new "root").ensureSubCatalog "a").Everywhere
      (fun node => node.implicit = true → node.isEmpty = false) := by
    refine everywhere_iff.mpr ⟨fun h => (nomatch h), fun name sub hsub => ?_⟩
    have hnew : sub = new "a" := by
      have hentries : ((new "root").ensureSubCatalog "a").subCatalog? name =
          [("a", new "a")].lookup (Name.fold name) := rfl
      rw [hentries, List.lookup_cons] at hsub
      split at hsub
      · cases hsub
        rfl
      · cases hsub
    subst hnew
    exact everywhere_iff.mpr ⟨fun h => (nomatch h), fun name sub hsub => (nomatch hsub)⟩
  have hok : (((new "root").ensureSubCatalog "a").create true .createDefault .table "a.b.c"
      (Table.named "c" [])).isOk = true := by
    decide +kernel
  cases hcreate : ((new "root").ensureSubCatalog "a").create true .createDefault .table "a.b.c"
      (Table.named "c" []) with
  | error error =>
    rw [hcreate] at hok
    cases hok
  | ok result =>
    exact ⟨hbuilt, htidy, result.1, result.2, rfl, deleteCreated_of_create hbuilt htidy hcreate⟩

end SchemaCatalog.Catalog
