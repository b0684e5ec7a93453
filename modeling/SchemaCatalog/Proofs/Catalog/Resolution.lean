import SchemaCatalog.Proofs.Catalog.Built
import SchemaCatalog.Proofs.Catalog.Coherence
import SchemaCatalog.Proofs.Catalog.PlainName

/-!
# What a name resolves to

All resources but functions are stored under the name itself, so a place of the name is taken if and
only if a lookup finds something there.  A create that stores its resource lets the name resolve to it
at every place, whereas one that keeps an existing resource leaves every place as it was.  What a name
finds at the root is deleted by the same name, unless the name has a blank segment or, for functions,
a colon.
-/

namespace SchemaCatalog

/-- The path by which a place is looked up. -/
def Place.path (place : Place) : List String :=
  place.catalogs ++ [place.name]

namespace Catalog

variable {kind : ResourceKind} {nested : Bool} {mode : CreateMode} {name : String}

/-! ## After a create -/

section Create

variable {resource stored : Resource kind} {catalog created : Catalog}

theorem selects_eq_ownKey (hkind : kind ≠ .function) (resource : Resource kind) :
    kind.selects = ownKey kind resource := by
  cases kind with
  | table => rfl
  | function => exact absurd rfl hkind
  | procedure => rfl
  | tableFunction => rfl

theorem find_path (hkind : kind ≠ .function) (resource : Resource kind) {place : Place}
    (hplace : place ∈ Place.splits (Name.segments name)) (catalog : Catalog) :
    catalog.find kind place.path =
      (catalog.occupant? kind resource place).elim (.error (.notFound kind name)) .ok := by
  have hdotted : Name.dotted (place.catalogs ++ [place.name]) = name := by
    rw [dotted_of_mem_splits hplace, Name.dotted_segments]
  rw [Place.path, find_eq, hdotted, selects_eq_ownKey hkind resource, occupant?_eq]

theorem find_path_eq_ok_iff (hkind : kind ≠ .function) (resource : Resource kind)
    {found : Resource kind} {place : Place} (hplace : place ∈ Place.splits (Name.segments name)) :
    catalog.find kind place.path = .ok found ↔
      catalog.occupant? kind resource place = some found := by
  rw [find_path hkind resource hplace]
  cases catalog.occupant? kind resource place <;> simp

theorem find_path_eq_error_iff (hkind : kind ≠ .function) (resource : Resource kind)
    {place : Place} (hplace : place ∈ Place.splits (Name.segments name)) :
    catalog.find kind place.path = .error (.notFound kind name) ↔
      catalog.occupant? kind resource place = none := by
  rw [find_path hkind resource hplace]
  cases catalog.occupant? kind resource place <;> simp

/-- **After a create the name resolves at all of its places** to the resource that the create gives.
The exception is a create that keeps what is there: it changes nothing, and what it gives is found at
the first place that resolves. -/
theorem find_of_create (hkind : kind ≠ .function)
    (hcreate : catalog.create true mode kind name resource = .ok (created, stored)) :
    ((mode = .createIfNotExists → ∀ place ∈ Place.splits (Name.segments name),
        catalog.find kind place.path = .error (.notFound kind name)) →
      ∀ place ∈ Place.splits (Name.segments name), created.find kind place.path = .ok stored) ∧
    (mode = .createIfNotExists →
      (∃ place ∈ Place.splits (Name.segments name), ∃ found,
        catalog.find kind place.path = .ok found) →
      created = catalog ∧
        ∃ front place back, Place.splits (Name.segments name) = front ++ place :: back ∧
          catalog.find kind place.path = .ok stored ∧
          ∀ earlier ∈ front, catalog.find kind earlier.path = .error (.notFound kind name)) := by
  rcases create_eq_ok_iff.mp hcreate with
    ⟨places, hplaces, -, ⟨hmode, hkept, rfl⟩ | ⟨hstores, rfl, rfl⟩⟩
  · obtain rfl := Place.eq_splits_of_ofName hplaces
    rcases List.findSome?_eq_some_iff.mp hkept with ⟨front, place, back, heq, hplace, hfront⟩
    have hsplits : Place.splits (Name.segments name) = front ++ place :: back := heq
    have hmem : place ∈ Place.splits (Name.segments name) := by
      rw [hsplits]
      exact List.mem_append_right front List.mem_cons_self
    have hfound := (find_path_eq_ok_iff hkind resource hmem).mpr hplace
    constructor
    · intro hfree
      rw [hfree hmode place hmem] at hfound
      cases hfound
    · intro _ _
      refine ⟨rfl, front, place, back, hsplits, hfound, fun earlier hearlier => ?_⟩
      apply (find_path_eq_error_iff hkind resource ?_).mpr (hfront earlier hearlier)
      rw [hsplits]
      exact List.mem_append_left _ hearlier
  · obtain rfl := Place.eq_splits_of_ofName hplaces
    rw [foldl_register_splits]
    constructor
    · intro _ place hplace
      exact (find_path_eq_ok_iff hkind resource hplace).mpr
        (occupant?_registerAlong resource hplace catalog)
    · rintro hmode ⟨place, hplace, found, hfound⟩
      -- a create of this mode stores its resource only if all places are free
      rcases hstores with hfree | hreplaces
      · have hnone := List.findSome?_eq_none_iff.mp hfree place hplace
        rw [(find_path_eq_ok_iff hkind resource hplace).mp hfound] at hnone
        cases hnone
      · rw [hmode] at hreplaces
        cases hreplaces

-- The first create stores its table at both places, the second keeps it.
theorem find_of_create_twice :
    ∃ created,
      (new "root").create true .createIfNotExists .table "a.b" (Table.named "b" []) =
        .ok (created, Table.named "b" []) ∧
      (∀ place ∈ [(⟨[], "a.b"⟩ : Place), ⟨["a"], "b"⟩],
        created.find .table place.path = .ok (Table.named "b" [])) ∧
      created.create true .createIfNotExists .table "a.b" (Table.named "c" []) =
        .ok (created, Table.named "b" []) ∧
      ∃ front place back, [(⟨[], "a.b"⟩ : Place), ⟨["a"], "b"⟩] = front ++ place :: back ∧
        created.find .table place.path = .ok (Table.named "b" []) := by
  have hsplits : Place.splits (Name.segments "a.b") = [⟨[], "a.b"⟩, ⟨["a"], "b"⟩] := by
    rfl
  have hplaces : Place.ofName true "a.b" = .ok (Place.splits (Name.segments "a.b")) := by
    rfl
  have hfree : ∀ place ∈ Place.splits (Name.segments "a.b"),
      (new "root").occupant? .table (Table.named "b" []) place = none := by
    intro place _
    rw [occupant?_eq, seen?_of_isEmpty rfl]
  have hfirst := (@create_eq_ok_iff _ .createIfNotExists _ _ _ _ _ _).mpr
    ⟨_, hplaces, rfl, Or.inr ⟨Or.inl (List.findSome?_eq_none_iff.mpr hfree), rfl, rfl⟩⟩
  have hfound := (find_of_create (by decide) hfirst).1 fun _ place hplace =>
    (find_path_eq_error_iff (by decide) _ hplace).mpr (hfree place hplace)
  have hflat : ⟨[], "a.b"⟩ ∈ Place.splits (Name.segments "a.b") := by
    decide
  have htaken := (find_path_eq_ok_iff (by decide) (Table.named "c" []) hflat).mp (hfound _ hflat)
  have hsecond := (@create_eq_ok_iff _ .createIfNotExists _ _ _ _ _ _).mpr
    ⟨_, hplaces, rfl, Or.inl ⟨rfl, by rw [hsplits, List.findSome?_cons, htaken], rfl⟩⟩
  rcases (find_of_create (by decide) hsecond).2 rfl ⟨_, hflat, _, hfound _ hflat⟩ with
    ⟨-, front, place, back, heq, hplace, -⟩
  rw [hsplits] at hfound heq
  exact ⟨_, hfirst, hfound, hsecond, front, place, back, heq, hplace⟩

-- Only the place below is taken, so nothing is stored at the root.
theorem flat_not_found_of_createIfNotExists :
    (do
      let sub ← (new "a").add .table (Table.named "b" [])
      let catalog ← (new "root").addSubCatalog sub
      let (created, stored) ← catalog.create true .createIfNotExists .table "a.b"
        (Table.named "c" [])
      .ok (stored, (created.find .table ["a", "b"]).toOption,
        (created.find .table ["a.b"]).toOption)).toOption =
      some (Table.named "b" [], some (Table.named "b" []), none) := by
  decide +kernel

end Create

/-! ## After a delete -/

theorem find_singleton (kind : ResourceKind) (name : String) (catalog : Catalog) :
    catalog.find kind [name] =
      ((catalog.resources kind).find? (kind.selects name)).elim (.error (.notFound kind name))
        .ok := by
  have hflat := find_eq kind [] name catalog
  rw [List.nil_append, Name.dotted_singleton] at hflat
  exact hflat

theorem resources_unregisterAlong_chain (selects : Selection) (nested : Bool) (name : String)
    (catalog : Catalog) :
    (catalog.unregisterAlong kind selects (Place.chain nested name)).resources kind =
      (catalog.resources kind).removeWhere (selects name) := by
  cases hchain : Place.chain nested name with
  | nil => exact absurd hchain (Place.chain_ne_nil nested name)
  | cons segment rest =>
    rw [resources_unregisterAlong, ← hchain, Place.dotted_chain, resources_discard]

-- A plain name stands for keys with a group in front of it, hence for longer ones.
theorem ne_fold_of_selects {key : String} (h : ResourceKind.function.selects name key = true) :
    key ≠ Name.fold name := by
  rintro rfl
  rw [ResourceKind.selects, beq_iff_eq, Option.map_eq_some_iff] at h
  rcases h with ⟨⟨group, rest⟩, hsplit, rfl⟩
  have hlength := congrArg String.length (Name.eq_qualify_of_splitQualified? hsplit).2
  simp only [Name.qualify, String.length_append] at hlength
  have hcolon : ":".length = 1 := rfl
  omega

-- A full name deletes the function with this key, which the same text as a plain name does not mean.
theorem find_of_deleteFunctionByFullName {catalog deleted : Catalog}
    (hdelete : catalog.deleteFunctionByFullName nested name = .ok deleted) :
    deleted.find .function [name] = catalog.find .function [name] := by
  unfold deleteFunctionByFullName at hdelete
  split at hdelete
  · cases hdelete
  · rename_i group rest hsplit
    have hname := (Name.eq_qualify_of_splitQualified? hsplit).2
    rw [find_singleton, find_singleton, eq_unregisterAlong_of_deleteSelected hdelete,
      resources_unregisterAlong_chain, ← hname, Namespace.find?_removeWhere_of_disjoint]
    intro key hkey
    exact beq_eq_false_iff_ne.mpr (ne_fold_of_selects hkey)

/-- **What a name finds at the root, a delete of the name removes**, if and only if no segment of the
name is blank and the name is not read as the full name of a function. -/
theorem delete_of_find_iff {catalog : Catalog} {found : Resource kind}
    (hfind : catalog.find kind [name] = .ok found) (nested : Bool) :
    (∃ deleted, catalog.delete nested kind name = .ok deleted ∧
        deleted.find kind [name] = .error (.notFound kind name)) ↔
      (Name.segments name).any Text.isBlank = false ∧ ¬ (kind = .function ∧ ':' ∈ name.toList) := by
  constructor
  · rintro ⟨deleted, hdelete, hgone⟩
    by_cases hfull : kind = .function ∧ ':' ∈ name.toList
    · rw [delete, if_pos hfull] at hdelete
      obtain rfl := hfull.1
      rw [find_of_deleteFunctionByFullName hdelete, hfind] at hgone
      cases hgone
    · rw [delete, if_neg hfull, deleteNamed, deleteSelected_eq_ok_iff] at hdelete
      rcases hdelete with ⟨places, hplaces, -⟩
      refine ⟨Bool.eq_false_iff.mpr fun hblank => ?_, hfull⟩
      rw [Place.ofName_eq, if_pos hblank] at hplaces
      cases hplaces
  · rintro ⟨hname, hplain⟩
    have hplaces : Place.ofName nested name = .ok (Place.splits (Place.chain nested name)) := by
      rw [Place.ofName_eq, hname]
      rfl
    have hseen : (catalog.seen? kind kind.selects ⟨[], name⟩).isSome = true := by
      have hroot := find_eq kind [] name catalog
      rw [List.nil_append, hfind] at hroot
      cases hsome : catalog.seen? kind kind.selects ⟨[], name⟩ with
      | none =>
        rw [hsome] at hroot
        cases hroot
      | some found => rfl
    refine ⟨_, delete_of_seen? hplain hplaces (Place.flat_mem_splits_chain nested name) hseen, ?_⟩
    rw [find_singleton, resources_unregisterAlong_chain, Namespace.find?_removeWhere]
    rfl

theorem delete_of_find_table :
    ∃ catalog deleted, (new "root").add .table (Table.named "t" []) = .ok catalog ∧
      catalog.find .table ["t"] = .ok (Table.named "t" []) ∧
      catalog.delete true .table "t" = .ok deleted ∧
      deleted.find .table ["t"] = .error (.notFound .table "t") := by
  have hfind : ((new "root").store .table (Table.named "t" []) "t").find .table ["t"] =
      .ok (Table.named "t" []) := by
    rfl
  rcases (delete_of_find_iff hfind true).mpr ⟨by rfl, by decide⟩ with ⟨deleted, hdelete, hgone⟩
  exact ⟨_, deleted, rfl, hfind, hdelete, hgone⟩

-- A node stores under any name, but a delete refuses blank segments and reads a colon as the end of
-- a group.
theorem found_but_not_deleted :
    (do
      let tables ← (new "root").add .table (Table.named "" [])
      let catalog ← tables.add .function ⟨["a:b"], "UDF", .scalar, []⟩
      let table ← catalog.find .table [""]
      let function ← catalog.find .function ["a:b"]
      .ok (table, function, (catalog.delete true .table "").isOk,
        (catalog.delete true .function "a:b").isOk)).toOption =
      some (Table.named "" [], ⟨["a:b"], "UDF", .scalar, []⟩, false, false) := by
  decide +kernel

end Catalog

end SchemaCatalog
