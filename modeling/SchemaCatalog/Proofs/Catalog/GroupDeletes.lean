import Mathlib.Data.List.Dedup
import SchemaCatalog.Proofs.Catalog.Canonical
import SchemaCatalog.Proofs.Catalog.Key
import SchemaCatalog.Proofs.Catalog.Selections

/-!
# Deleting a function group by group

A plain name stands for the functions of all groups.  Deleting it is the same as deleting the full name
of every group in which it stands for a function, one after the other and in any order, although every
one of these deletes prunes the tree.
-/

namespace SchemaCatalog.Catalog

/-! ## Stored keys are folded -/

/-- What is stored at a node is stored under the keys of names. -/
def FoldedKeys (catalog : Catalog) : Prop :=
  catalog.Everywhere fun node => ∀ kind, ∀ key ∈ (node.resources kind).keys,
    ∃ name, key = Name.fold name

theorem foldedKeys_of_built {catalog : Catalog} (h : Built catalog) : catalog.FoldedKeys := by
  intro path node hnode kind key hkey
  obtain ⟨entry, hentry, rfl⟩ := List.mem_map.mp hkey
  obtain ⟨name, hname⟩ := (keepsKeys_of_built h path node hnode kind).2 entry hentry
  exact ⟨_, hname⟩

/-! ## Groups of a name -/

/-- The groups of the keys that a plain lookup matches at a place. -/
def groupsAt (catalog : Catalog) (place : Place) : List String :=
  match catalog.descend? place.catalogs with
  | some node =>
    (node.functions.keys.filter (ResourceKind.function.selects place.name)).filterMap fun key =>
      (Name.splitQualified? key).map (·.1)
  | none => []

/-- The groups in which a name stands for a function at some of its places, each of them once. -/
def groups (nested : Bool) (name : String) (catalog : Catalog) : List String :=
  ((Place.splits (Place.chain nested name)).flatMap catalog.groupsAt).dedup

/-- Selects the key of a name in a group. -/
def inGroup (group : String) : Selection :=
  fun name key => key == Name.fold (Name.qualify group name)

/-- A group as keys hold it. -/
structure Settled (group : String) : Prop where
  fold : Name.fold group = group
  sigmaFree : Name.SigmaFree group
  colon : ':' ∉ group.toList

theorem Settled.fold_qualify {group name : String} (h : Settled group)
    (hname : Name.SigmaFree name) :
    Name.fold (Name.qualify group name) = Name.qualify group (Name.fold name) := by
  rw [Name.fold_qualify h.sigmaFree hname, h.fold]

theorem selects_function_iff {name key : String} :
    ResourceKind.function.selects name key = true ↔
      ∃ group, Name.splitQualified? key = some (group, Name.fold name) := by
  show ((Name.splitQualified? key).map (·.2) == some (Name.fold name)) = true ↔ _
  rw [beq_iff_eq, Option.map_eq_some_iff]
  constructor
  · rintro ⟨⟨group, rest⟩, hsplit, rfl⟩
    exact ⟨group, hsplit⟩
  · rintro ⟨group, hsplit⟩
    exact ⟨_, hsplit, rfl⟩

/-- A stored key that a plain name selects is the key of the name in the group that it starts with. -/
theorem settled_of_splitQualified? {name key raw group : String} (hkey : key = Name.fold raw)
    (hname : Name.SigmaFree name)
    (hsplit : Name.splitQualified? key = some (group, Name.fold name)) :
    Settled group ∧ key = Name.fold (Name.qualify group name) := by
  obtain ⟨hcolon, hqualify⟩ := Name.eq_qualify_of_splitQualified? hsplit
  have hsigma : Name.SigmaFree group := by
    have hwhole : Name.SigmaFree key := hkey ▸ Name.sigmaFree_fold raw
    rw [hqualify, Name.qualify, Name.sigmaFree_append, Name.sigmaFree_append] at hwhole
    exact hwhole.1.1
  have hfold : Name.fold group = group := by
    have hfixed : Name.fold key = key := by rw [hkey, Name.fold_fold]
    rw [hqualify, Name.fold_qualify hsigma (Name.sigmaFree_fold name), Name.fold_fold] at hfixed
    have hparts := congrArg Name.splitQualified? hfixed
    rw [Name.splitQualified?_qualify (mt Name.colon_mem_fold_iff.mp hcolon),
      Name.splitQualified?_qualify hcolon] at hparts
    exact (Prod.mk.inj (Option.some.inj hparts)).1
  have hsettled : Settled group := ⟨hfold, hsigma, hcolon⟩
  exact ⟨hsettled, by rw [hsettled.fold_qualify hname, hqualify]⟩

theorem Settled.splitQualified?_fold {group name : String} (h : Settled group)
    (hname : Name.SigmaFree name) :
    Name.splitQualified? (Name.fold (Name.qualify group name)) = some (group, Name.fold name) := by
  rw [h.fold_qualify hname, Name.splitQualified?_qualify h.colon]

theorem mem_groupsAt_iff {catalog : Catalog} {place : Place} {group : String} :
    group ∈ catalog.groupsAt place ↔
      ∃ node, catalog.descend? place.catalogs = some node ∧
        ∃ key ∈ node.functions.keys, Name.splitQualified? key = some (group, Name.fold place.name) := by
  unfold groupsAt
  cases catalog.descend? place.catalogs with
  | none => simp
  | some node =>
    simp only [List.mem_filterMap, List.mem_filter, selects_function_iff, Option.some.injEq,
      exists_eq_left']
    constructor
    · rintro ⟨key, ⟨hkey, other, hsplit⟩, hgroup⟩
      rw [hsplit] at hgroup
      cases hgroup
      exact ⟨key, hkey, hsplit⟩
    · rintro ⟨key, hkey, hsplit⟩
      exact ⟨key, ⟨hkey, group, hsplit⟩, by rw [hsplit]; rfl⟩

theorem mem_groups_iff {nested : Bool} {name : String} {catalog : Catalog} {group : String} :
    group ∈ catalog.groups nested name ↔
      ∃ place ∈ Place.splits (Place.chain nested name), group ∈ catalog.groupsAt place := by
  rw [groups, List.mem_dedup, List.mem_flatMap]

theorem exists_mem_groupsAt_iff {catalog : Catalog} {place : Place} :
    (∃ group, group ∈ catalog.groupsAt place) ↔
      catalog.holdsAt .function (ResourceKind.selects .function) place = true := by
  simp only [mem_groupsAt_iff]
  unfold holdsAt
  cases catalog.descend? place.catalogs with
  | none => simp
  | some node =>
    simp only [Option.some.injEq, exists_eq_left', List.any_eq_true, selects_function_iff]
    exact ⟨fun ⟨group, key, hkey, hsplit⟩ => ⟨key, hkey, group, hsplit⟩,
      fun ⟨key, hkey, group, hsplit⟩ => ⟨group, key, hkey, hsplit⟩⟩

theorem groups_eq_nil_iff {nested : Bool} {name : String} {catalog : Catalog} :
    catalog.groups nested name = [] ↔
      ¬ ∃ place ∈ Place.splits (Place.chain nested name),
        catalog.holdsAt .function (ResourceKind.selects .function) place = true := by
  simp only [← exists_mem_groupsAt_iff, List.eq_nil_iff_forall_not_mem, mem_groups_iff]
  exact ⟨fun h ⟨place, hplace, group, hgroup⟩ => h group ⟨place, hplace, hgroup⟩,
    fun h group ⟨place, hplace, hgroup⟩ => h ⟨place, hplace, group, hgroup⟩⟩

/-! ## The selections of the groups -/

theorem sigmaFree_of_mem_splits {nested : Bool} {name : String} (hname : Name.SigmaFree name)
    {place : Place} (hplace : place ∈ Place.splits (Place.chain nested name)) :
    Name.SigmaFree place.name := by
  have hchain : ∀ segment ∈ Place.chain nested name, Name.SigmaFree segment := by
    intro segment hsegment
    cases nested with
    | false => exact List.mem_singleton.mp hsegment ▸ hname
    | true => exact Name.sigmaFree_of_mem_segments hname hsegment
  obtain ⟨count, -, rfl⟩ := exists_of_mem_splits hplace
  exact Name.sigmaFree_dotted fun segment hsegment => hchain segment (List.mem_of_mem_drop hsegment)

section Place

variable {catalog : Catalog} {place : Place} {group other : String}

theorem settled_of_mem_groupsAt (hkeys : catalog.FoldedKeys) (hname : Name.SigmaFree place.name)
    (h : group ∈ catalog.groupsAt place) :
    Settled group ∧ catalog.holdsAt .function (inGroup group) place = true := by
  obtain ⟨node, hnode, key, hkey, hsplit⟩ := mem_groupsAt_iff.mp h
  obtain ⟨raw, hraw⟩ := hkeys place.catalogs node hnode .function key hkey
  obtain ⟨hsettled, heq⟩ := settled_of_splitQualified? hraw hname hsplit
  refine ⟨hsettled, ?_⟩
  rw [holdsAt, hnode]
  exact List.any_eq_true.mpr ⟨key, hkey, beq_iff_eq.mpr heq⟩

/-- Different groups have different keys. -/
theorem inGroup_disjoint (hgroup : Settled group) (hother : Settled other)
    (hname : Name.SigmaFree place.name) (hne : group ≠ other) {key : String}
    (hkey : inGroup other place.name key = true) : inGroup group place.name key = false := by
  have heq : key = Name.fold (Name.qualify other place.name) := beq_iff_eq.mp hkey
  apply Bool.eq_false_iff.mpr
  intro hsame
  have hboth : key = Name.fold (Name.qualify group place.name) := beq_iff_eq.mp hsame
  have hsplit := hgroup.splitQualified?_fold hname
  rw [← hboth, heq, hother.splitQualified?_fold hname] at hsplit
  exact hne (Prod.mk.inj (Option.some.inj hsplit)).1.symm

/-- Of the stored keys a plain name selects those of its groups. -/
theorem selects_eq_any_inGroup (hkeys : catalog.FoldedKeys) (hname : Name.SigmaFree place.name)
    {order : List String} (hsettled : ∀ group ∈ order, Settled group)
    (horder : ∀ group ∈ catalog.groupsAt place, group ∈ order) {node : Catalog}
    (hnode : catalog.descend? place.catalogs = some node) {key : String}
    (hkey : key ∈ (node.resources .function).keys) :
    ResourceKind.function.selects place.name key =
      order.any fun group => inGroup group place.name key := by
  rw [Bool.eq_iff_iff, selects_function_iff, List.any_eq_true]
  constructor
  · rintro ⟨group, hsplit⟩
    obtain ⟨raw, hraw⟩ := hkeys place.catalogs node hnode .function key hkey
    have heq := (settled_of_splitQualified? hraw hname hsplit).2
    have hgroup : group ∈ catalog.groupsAt place :=
      mem_groupsAt_iff.mpr ⟨node, hnode, key, hkey, hsplit⟩
    exact ⟨group, horder group hgroup, beq_iff_eq.mpr heq⟩
  · rintro ⟨group, hgroup, hsame⟩
    have heq : key = Name.fold (Name.qualify group place.name) := beq_iff_eq.mp hsame
    exact ⟨group, by rw [heq, (hsettled group hgroup).splitQualified?_fold hname]⟩

end Place

/-! ## All groups -/

theorem foldlM_deleteFunctionByFullName {order : List String}
    (hsettled : ∀ group ∈ order, Settled group) (nested : Bool) (name : String)
    (catalog : Catalog) :
    order.foldlM (fun tree group =>
        tree.deleteFunctionByFullName nested (Name.qualify group name)) catalog =
      order.foldlM (fun tree group =>
        tree.deleteSelected nested .function (Name.qualify group name) name (inGroup group))
        catalog := by
  induction order generalizing catalog with
  | nil => rfl
  | cons group rest ih =>
    have hrest := ih fun other hother => hsettled other (List.mem_cons_of_mem _ hother)
    have hcolon := (hsettled group List.mem_cons_self).colon
    rw [List.foldlM_cons, List.foldlM_cons, deleteFunctionByFullName_qualify hcolon, funext hrest]
    rfl

theorem delete_function_eq {catalog : Catalog} {name : String}
    (hname : ∀ segment ∈ Name.segments name, Text.isBlank segment = false)
    (hcolon : ':' ∉ name.toList) (nested : Bool) :
    catalog.delete nested .function name =
      if catalog.groups nested name = [] then .error (.notFound .function name)
      else .ok (catalog.unregisterAlong .function (ResourceKind.selects .function)
        (Place.chain nested name)) := by
  rw [delete, if_neg fun h => hcolon h.2, deleteNamed, deleteSelected_eq hname]
  by_cases hholds : ∃ place ∈ Place.splits (Place.chain nested name),
      catalog.holdsAt .function (ResourceKind.selects .function) place = true
  · rw [if_pos hholds, if_neg fun h => groups_eq_nil_iff.mp h hholds]
  · rw [if_neg hholds, if_pos (groups_eq_nil_iff.mpr hholds)]

/-- **Deleting a plain name is deleting it in each of its groups.**  If it has none, nothing is found.
Otherwise the deletes of the full names succeed in every order, and leave the very tree that the delete
of the plain name leaves. -/
theorem delete_eq_foldlM_groups {catalog : Catalog} {name : String} (hbuilt : Built catalog)
    (hname : ∀ segment ∈ Name.segments name, Text.isBlank segment = false)
    (hcolon : ':' ∉ name.toList) (hsigma : 'Σ' ∉ name.toList) (nested : Bool) :
    (catalog.delete nested .function name = .error (.notFound .function name) ↔
      catalog.groups nested name = []) ∧
    (catalog.groups nested name ≠ [] →
      ∃ deleted, catalog.delete nested .function name = .ok deleted ∧
        ∀ order : List String, order.Perm (catalog.groups nested name) →
          order.foldlM (fun tree group =>
              tree.deleteFunctionByFullName nested (Name.qualify group name)) catalog =
            .ok deleted) := by
  have hplain := @delete_function_eq catalog name hname hcolon nested
  constructor
  · rw [hplain]
    by_cases hnone : catalog.groups nested name = []
    · rw [if_pos hnone]
      exact iff_of_true rfl hnone
    · rw [if_neg hnone]
      exact iff_of_false (fun h => nomatch h) hnone
  · intro hsome
    rw [if_neg hsome] at hplain
    refine ⟨_, hplain, fun order horder => ?_⟩
    have hkeys := foldedKeys_of_built hbuilt
    have hplaces : ∀ place ∈ Place.splits (Place.chain nested name), Name.SigmaFree place.name :=
      fun place => sigmaFree_of_mem_splits hsigma
    -- every group has a key at some place, and starts as this key does
    have hgroups : ∀ group ∈ order, Settled group ∧
        ∃ place ∈ Place.splits (Place.chain nested name),
          catalog.holdsAt .function (inGroup group) place = true := by
      intro group hgroup
      obtain ⟨place, hplace, hmem⟩ := mem_groups_iff.mp (horder.mem_iff.mp hgroup)
      have hsettled := settled_of_mem_groupsAt hkeys (hplaces place hplace) hmem
      exact ⟨hsettled.1, place, hplace, hsettled.2⟩
    have hnodup : order.Nodup := horder.nodup_iff.mpr (List.nodup_dedup _)
    have hdisjoint : order.Pairwise fun group other =>
        ∀ place ∈ Place.splits (Place.chain nested name), ∀ key,
          inGroup other place.name key = true → inGroup group place.name key = false :=
      hnodup.imp_of_mem fun hgroup hother hne place hplace _ =>
        inGroup_disjoint (hgroups _ hgroup).1 (hgroups _ hother).1 (hplaces place hplace) hne
    have hne : order ≠ [] := fun hnil => hsome (List.nil_perm.mp (hnil ▸ horder))
    have hagree : catalog.unregisterAlong .function (ResourceKind.selects .function)
        (Place.chain nested name) =
        catalog.unregisterAlong .function
          (fun place key => order.any fun group => inGroup group place key)
          (Place.chain nested name) := by
      refine unregisterAlong_eq_of_agree fun place hplace node hnode key hkey => ?_
      refine selects_eq_any_inGroup hkeys (hplaces place hplace) (fun group h => (hgroups group h).1)
        (fun group h => ?_) hnode hkey
      exact horder.mem_iff.mpr (mem_groups_iff.mpr ⟨place, hplace, h⟩)
    rw [foldlM_deleteFunctionByFullName (fun group h => (hgroups group h).1), hagree]
    exact foldlM_deleteSelected hne hname (fun group h => (hgroups group h).2) hdisjoint

/-- The later of two groups is deleted first. -/
theorem delete_eq_foldlM_groups_reversed :
    let catalog := [
      (true, Operation.create .createDefault .function "a.f" ⟨["a", "f"], "UDF", .scalar, []⟩),
      (true, Operation.create .createDefault .function "a.f" ⟨["a", "f"], "Other", .scalar, []⟩)
      ].foldl after (new "root")
    Built catalog ∧ catalog.groups true "A.F" = ["udf", "other"] ∧
      ∃ deleted, catalog.delete true .function "A.F" = .ok deleted ∧
        ["other", "udf"].foldlM (fun tree group =>
          tree.deleteFunctionByFullName true (Name.qualify group "A.F")) catalog = .ok deleted := by
  intro catalog
  have hbuilt : Built catalog := built_foldl_after (.new "root") _
  have hgroups : catalog.groups true "A.F" = ["udf", "other"] := by decide +kernel
  have hname : ∀ segment ∈ Name.segments "A.F", Text.isBlank segment = false := by decide
  have hcolon : ':' ∉ "A.F".toList := by decide
  have hsigma : 'Σ' ∉ "A.F".toList := by decide
  obtain ⟨deleted, hdelete, horder⟩ :=
    (delete_eq_foldlM_groups hbuilt hname hcolon hsigma true).2 (by simp [hgroups])
  refine ⟨hbuilt, hgroups, deleted, hdelete, horder _ ?_⟩
  rw [hgroups]
  exact List.Perm.swap _ _ _

end SchemaCatalog.Catalog
