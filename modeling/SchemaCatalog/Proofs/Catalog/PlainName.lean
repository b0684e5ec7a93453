import SchemaCatalog.Proofs.Catalog.Key
import SchemaCatalog.Proofs.Catalog.Operation
import SchemaCatalog.Proofs.Name.Spelling

/-!
# Functions by their plain names

A function is stored under its group and its name, folded together.  A plain name is folded alone and
stands for the keys that hold it behind their first colon.  So it stands for a function of its own
unless the group distorts it, and of several functions it finds the one that stands first.
-/

namespace SchemaCatalog.Catalog

variable {kind : ResourceKind}

/-! ## The places of a name after a create and after a delete -/

theorem occupant?_registerAlong (resource : Resource kind) {segments : List String} {place : Place}
    (hplace : place ∈ Place.splits segments) (catalog : Catalog) :
    (catalog.registerAlong kind resource segments).occupant? kind resource place =
      some resource := by
  induction segments generalizing place catalog with
  | nil => cases hplace
  | cons segment rest ih =>
    rw [Place.splits_cons, List.mem_cons, List.mem_map] at hplace
    rcases hplace with rfl | ⟨inner, hinner, rfl⟩
    · show ((catalog.registerAlong kind resource (segment :: rest)).resources kind).get?
        (resource.storageKey kind (Name.dotted (segment :: rest))) = _
      rw [resources_registerAlong, resources_store, Namespace.get?_insert, if_pos rfl]
    · have hrest : rest ≠ [] := by
        rintro rfl
        cases hinner
      rw [occupant?_eq, seen?_below, registerAlong_cons resource segment hrest,
        subCatalog?_enterOrCreate_self, Option.bind_some, ← occupant?_eq]
      exact ih hinner _

theorem seen?_unregisterAlong (selects : Selection) {segments : List String} {place : Place}
    (hplace : place ∈ Place.splits segments) (catalog : Catalog) :
    (catalog.unregisterAlong kind selects segments).seen? kind selects place = none := by
  induction segments generalizing place catalog with
  | nil => cases hplace
  | cons segment rest ih =>
    rw [Place.splits_cons, List.mem_cons, List.mem_map] at hplace
    rcases hplace with rfl | ⟨inner, hinner, rfl⟩
    · show ((catalog.unregisterAlong kind selects (segment :: rest)).resources kind).find?
        (selects (Name.dotted (segment :: rest))) = _
      rw [resources_unregisterAlong, resources_discard, Namespace.find?_removeWhere]
    · have hrest : rest ≠ [] := by
        rintro rfl
        cases hinner
      rw [seen?_below, unregisterAlong_cons selects segment hrest, subCatalog?_enterAndPrune_self]
      cases subCatalog? _ segment with
      | none => rfl
      | some sub =>
        rw [Option.bind_some]
        split
        · rfl
        · exact ih hinner sub

/-! ## Keys and plain names -/

theorem selects_fold_qualify {group : String} (hgroup : ':' ∉ group.toList) (name : String) :
    ResourceKind.function.selects name (Name.fold (Name.qualify group name)) = true ↔
      ¬ Name.Distorts group name := by
  rcases Name.splitQualified?_fold_qualify hgroup name with ⟨front, rest, hsplit, hrest⟩
  rw [ResourceKind.selects, hsplit, Option.map_some, beq_iff_eq, Option.some_inj, hrest]

theorem isSome_seen?_of_occupant? {selects : Selection} {resource found : Resource kind}
    {catalog : Catalog} {place : Place}
    (hkey : selects place.name (Name.fold (resource.storageKey kind place.name)) = true)
    (hfound : catalog.occupant? kind resource place = some found) :
    (catalog.seen? kind selects place).isSome = true := by
  rcases Option.bind_eq_some_iff.mp hfound with ⟨node, hnode, hget⟩
  have hmem := List.mem_map_of_mem (f := (·.1)) (Namespace.mem_entries_of_get?_eq_some hget)
  rw [seen?, hnode, Option.bind_some, ← Namespace.any_keys, List.any_eq_true]
  exact ⟨_, hmem, hkey⟩

variable {nested : Bool} {mode : CreateMode} {name : String}

theorem delete_of_seen? (hplain : ¬ (kind = .function ∧ ':' ∈ name.toList)) {catalog : Catalog}
    {places : List Place} (hplaces : Place.ofName nested name = .ok places) {place : Place}
    (hplace : place ∈ places) (hseen : (catalog.seen? kind kind.selects place).isSome = true) :
    catalog.delete nested kind name =
      .ok (catalog.unregisterAlong kind kind.selects (Place.chain nested name)) := by
  have hholds : places.any (catalog.holdsAt kind kind.selects) = true :=
    List.any_eq_true.mpr ⟨place, hplace, (holdsAt_eq catalog place).trans hseen⟩
  obtain rfl := Place.eq_splits_of_ofName hplaces
  rw [delete, if_neg hplain, deleteNamed, ← prunePlaces_foldl_unregister]
  exact deleteSelected_eq_ok_iff.mpr ⟨_, hplaces, hholds, rfl⟩

variable {function stored : SqlFunction} {catalog created : Catalog}

/-- **A function is found and deleted by its plain name** at all places of the name, unless the group
distorts the name of one. -/
theorem found_and_deleted_iff (hcolon : ':' ∉ name.toList) (hmode : mode ≠ .createIfNotExists)
    {places : List Place} (hplaces : Place.ofName nested name = .ok places)
    (hcreate : catalog.create nested mode .function name function = .ok (created, stored)) :
    (∀ place ∈ places, ¬ Name.Distorts function.group place.name) ↔
      (∀ place ∈ places,
        (∃ found, created.find .function (place.catalogs ++ [place.name]) = .ok found) ∧
        created.occupant? .function function place = some function ∧
        ResourceKind.function.selects place.name
          (Name.fold (Resource.storageKey .function function place.name)) = true) ∧
      ∃ deleted, created.delete nested .function name = .ok deleted ∧
        ∀ place ∈ places, deleted.occupant? .function function place = none := by
  rcases create_eq_ok_iff.mp hcreate with ⟨others, hothers, hvalid, ⟨hkept, -⟩ | ⟨-, -, hcreated⟩⟩
  · exact absurd hkept hmode
  obtain rfl := Place.eq_splits_of_ofName hplaces
  obtain rfl := Place.eq_splits_of_ofName hothers
  rw [foldl_register_splits] at hcreated
  have hgroup : ':' ∉ function.group.toList := @colon_notMem_group .function function hvalid
  have hstored : ∀ place ∈ Place.splits (Place.chain nested name),
      created.occupant? .function function place = some function := by
    intro place hplace
    rw [← hcreated]
    exact @occupant?_registerAlong .function function _ _ hplace catalog
  constructor
  · intro hplain
    have hkey : ∀ place ∈ Place.splits (Place.chain nested name),
        ResourceKind.function.selects place.name
          (Name.fold (Resource.storageKey .function function place.name)) = true := fun place hplace =>
      (selects_fold_qualify hgroup place.name).mpr (hplain place hplace)
    have hseen : ∀ place ∈ Place.splits (Place.chain nested name),
        (created.seen? .function ResourceKind.function.selects place).isSome = true :=
      fun place hplace => isSome_seen?_of_occupant? (hkey place hplace) (hstored place hplace)
    constructor
    · intro place hplace
      rcases Option.isSome_iff_exists.mp (hseen place hplace) with ⟨found, hfound⟩
      refine ⟨⟨found, ?_⟩, hstored place hplace, hkey place hplace⟩
      rw [find_eq, hfound]
      rfl
    · rcases List.exists_mem_of_ne_nil _ (Place.splits_ne_nil (Place.chain_ne_nil nested name)) with
        ⟨first, hfirst⟩
      refine ⟨_, delete_of_seen? (fun hfull => hcolon hfull.2) hplaces hfirst (hseen first hfirst), ?_⟩
      -- a key of the function that was left would be one that the plain name stands for
      intro place hplace
      apply Option.eq_none_iff_forall_ne_some.mpr
      intro found hfound
      have hsome := isSome_seen?_of_occupant? (hkey place hplace) hfound
      rw [seen?_unregisterAlong _ hplace] at hsome
      cases hsome
  · rintro ⟨hfound, -⟩ place hplace
    exact (selects_fold_qualify hgroup place.name).mp (hfound place hplace).2.2

theorem found_and_deleted_below_made :
    ∃ created stored,
      (new "root").create true .createDefault .function "Math.Abs" ⟨["Abs"], "UDF", .scalar, []⟩ =
        .ok (created, stored) ∧
      (∃ found, created.find .function ["Math", "Abs"] = .ok found) ∧
      ∃ deleted, created.delete true .function "Math.Abs" = .ok deleted ∧
        deleted.occupant? .function ⟨["Abs"], "UDF", .scalar, []⟩ ⟨["Math"], "Abs"⟩ = none := by
  have hplaces : Place.ofName true "Math.Abs" = .ok [⟨[], "Math.Abs"⟩, ⟨["Math"], "Abs"⟩] := by
    rfl
  have hplain : ∀ place ∈ [(⟨[], "Math.Abs"⟩ : Place), ⟨["Math"], "Abs"⟩],
      ¬ Name.Distorts "UDF" place.name := by
    intro place hplace
    apply Name.not_distorts_of_sigmaFree
    revert place
    decide
  have hfree : [(⟨[], "Math.Abs"⟩ : Place), ⟨["Math"], "Abs"⟩].findSome?
      ((new "root").occupant? .function ⟨["Abs"], "UDF", .scalar, []⟩) = none := by
    rw [List.findSome?_eq_none_iff]
    intro place _
    rw [occupant?_eq, seen?_of_isEmpty rfl]
  have hcreate := (@create_eq_ok_iff _ .createDefault _ _ _ _ _ _).mpr
    ⟨_, hplaces, rfl, Or.inr ⟨Or.inl hfree, rfl, rfl⟩⟩
  rcases (found_and_deleted_iff (by decide) (by decide) hplaces hcreate).mp hplain with
    ⟨hfound, deleted, hdelete, hgone⟩
  exact ⟨_, _, hcreate, (hfound ⟨["Math"], "Abs"⟩ (by decide)).1, deleted, hdelete,
    hgone ⟨["Math"], "Abs"⟩ (by decide)⟩

-- Folded behind its group the sigma ends a word, folded alone it does not.
theorem not_found_of_final_sigma :
    ((new "root").create false .createDefault .function "Σ" ⟨["Σ"], "UDF", .scalar, []⟩).toOption.map
        (fun (created, _) => ((created.find .function ["Σ"]).toOption,
          (created.delete false .function "Σ").toOption.isSome)) = some (none, false) := by
  decide +kernel

/-! ## Replacing a function -/

theorem resources_registerAlong_chain (resource : Resource kind) (nested : Bool) (name : String)
    (catalog : Catalog) :
    (catalog.registerAlong kind resource (Place.chain nested name)).resources kind =
      (catalog.resources kind).insert (resource.storageKey kind name) resource := by
  cases hchain : Place.chain nested name with
  | nil => exact absurd hchain (Place.chain_ne_nil nested name)
  | cons segment rest =>
    rw [resources_registerAlong, ← hchain, Place.dotted_chain, resources_store]

/-- **A function that is created over another one comes last.**  A plain name finds it unless a
function of another group has the same name, or its own group distorts the name. -/
theorem find_of_createOrReplace (hvalid : Resource.validate .function function = .ok ())
    (hname : (Name.segments name).any Text.isBlank = false) (nested : Bool) (catalog : Catalog) :
    ∃ created,
      catalog.create nested .createOrReplace .function name function = .ok (created, function) ∧
      created.find .function [name] =
        match (catalog.functions.erase (Name.qualify function.group name)).find?
            (ResourceKind.function.selects name) with
        | some other => .ok other
        | none =>
          if Name.Distorts function.group name then .error (.notFound .function name)
          else .ok function := by
  have hplaces : Place.ofName nested name = .ok (Place.splits (Place.chain nested name)) := by
    rw [Place.ofName_eq, hname]
    rfl
  refine ⟨_, create_eq_ok_iff.mpr ⟨_, hplaces, hvalid, Or.inr ⟨Or.inr rfl, rfl, rfl⟩⟩, ?_⟩
  have hgroup : ':' ∉ function.group.toList := @colon_notMem_group .function function hvalid
  have hselects := selects_fold_qualify hgroup name
  rw [foldl_register_splits]
  have hseen : (catalog.registerAlong .function function (Place.chain nested name)).seen? .function
        ResourceKind.function.selects ⟨[], name⟩ =
      ((catalog.functions.erase (Name.qualify function.group name)).find?
          (ResourceKind.function.selects name)).or
        (if ResourceKind.function.selects name (Name.fold (Name.qualify function.group name)) = true
          then some function else none) := by
    show ((catalog.registerAlong .function function (Place.chain nested name)).resources
      .function).find? _ = _
    rw [resources_registerAlong_chain, Namespace.find?_insert]
    rfl
  show find .function ([] ++ [name]) _ = _
  rw [find_eq, hseen, List.nil_append, Name.dotted_singleton]
  cases (catalog.functions.erase (Name.qualify function.group name)).find?
      (ResourceKind.function.selects name) with
  | some other => rfl
  | none =>
    by_cases hdistorts : Name.Distorts function.group name
    · rw [if_neg (mt hselects.mp (not_not_intro hdistorts)), if_pos hdistorts]
      rfl
    · rw [if_pos (hselects.mpr hdistorts), if_neg hdistorts]
      rfl

theorem find_of_createOrReplace_own_group :
    ∃ created,
      ((new "root").store .function ⟨["fn"], "UDF", .scalar, []⟩ "fn").create false .createOrReplace
          .function "fn" ⟨["fn"], "UDF", .aggregate, []⟩ =
        .ok (created, ⟨["fn"], "UDF", .aggregate, []⟩) ∧
      created.find .function ["fn"] = .ok ⟨["fn"], "UDF", .aggregate, []⟩ := by
  have hvalid : Resource.validate .function ⟨["fn"], "UDF", .aggregate, []⟩ = .ok () := by
    rfl
  have hname : (Name.segments "fn").any Text.isBlank = false := by
    rfl
  have hothers : (((new "root").store .function ⟨["fn"], "UDF", .scalar, []⟩ "fn").functions.erase
      (Name.qualify "UDF" "fn")).find? (ResourceKind.function.selects "fn") = none := by
    show (((Namespace.empty : Namespace SqlFunction).insert (Name.qualify "UDF" "fn") _).erase
      (Name.qualify "UDF" "fn")).find? _ = none
    rw [Namespace.erase_insert]
    rfl
  have hplain : ¬ Name.Distorts "UDF" "fn" := Name.not_distorts_of_sigmaFree (by decide) "UDF"
  rcases find_of_createOrReplace hvalid hname false
    ((new "root").store .function ⟨["fn"], "UDF", .scalar, []⟩ "fn") with ⟨created, hcreate, hfind⟩
  rw [hothers] at hfind
  exact ⟨created, hcreate, hfind.trans (if_neg hplain)⟩

-- The function of the other group moves up when the first is replaced.
theorem find_of_createOrReplace_after_other_group :
    (do
      let (first, _) ← (new "root").create false .createDefault .function "fn"
        ⟨["fn"], "UDF", .scalar, []⟩
      let (both, _) ← first.create false .createDefault .function "fn"
        ⟨["fn"], "Builtin", .scalar, []⟩
      let before ← both.find .function ["fn"]
      let (replaced, _) ← both.create false .createOrReplace .function "fn"
        ⟨["fn"], "UDF", .aggregate, []⟩
      let after ← replaced.find .function ["fn"]
      .ok (before, after)).toOption =
      some (⟨["fn"], "UDF", .scalar, []⟩, ⟨["fn"], "Builtin", .scalar, []⟩) := by
  decide +kernel

end SchemaCatalog.Catalog
