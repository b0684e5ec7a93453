import SchemaCatalog.Proofs.Catalog.Face
import SchemaCatalog.Proofs.Catalog.Permanence

/-!
# What a create changes

A create that stores its resource changes the nodes along the segments of its name and nothing else.
Each of them gets the resource as the last entry of its kind, and those that are missing are made, as
the last sub-catalogs of their parents.
-/

namespace SchemaCatalog

namespace Face

/-- The face of an empty node that is made for the last segment of a path. -/
def made (path : List String) : Face :=
  (Catalog.newImplicit (path.getLastD "")).face

/-- A resource becomes the last entry of its kind.  An entry that was under the key before is
dropped; the others keep their order. -/
def store (kind : ResourceKind) (key : String) (resource : Resource kind) (face : Face) : Face :=
  { face with
    resources := Function.update face.resources kind
      ((face.resources kind).filter (·.1 != key) ++ [(key, resource)]) }

/-- A sub-catalog is there under a key, as the last one if it was not there before. -/
def hold (key : String) (face : Face) : Face :=
  { face with catalogs := if key ∈ face.catalogs then face.catalogs else face.catalogs ++ [key] }

/-- A resource is registered at a node under the segments that lie below the node. -/
def register (kind : ResourceKind) (resource : Resource kind) : List String → Face → Face
  | [], face => face
  | [name], face => face.store kind (Name.fold (resource.storageKey kind name)) resource
  | segment :: next :: rest, face =>
    (face.store kind
      (Name.fold (resource.storageKey kind (Name.dotted (segment :: next :: rest)))) resource).hold
      (Name.fold segment)

end Face

namespace Catalog

variable {kind : ResourceKind} {resource : Resource kind} {segments : List String}

theorem face_store (node : Catalog) (name : String) :
    (node.store kind resource name).face =
      node.face.store kind (Name.fold (resource.storageKey kind name)) resource :=
  face_withResources kind node _

theorem face_enterOrCreate (segment : String) (change : Catalog → Catalog) (node : Catalog) :
    (node.enterOrCreate segment change).face = node.face.hold (Name.fold segment) := by
  have hmem : Name.fold segment ∈ node.face.catalogs ↔ node.subCatalog? segment ≠ none :=
    (not_iff_comm.mp Namespace.get?_eq_none_iff.symm).symm
  unfold enterOrCreate
  cases hsub : node.subCatalog? segment with
  | some sub =>
    rw [Face.hold, if_pos (hmem.mpr (by simp [hsub]))]
    exact Face.ext rfl rfl (funext fun other => by cases other <;> rfl) (Namespace.keys_replace _ _ _)
  | none =>
    rw [Face.hold, if_neg (by simp [hmem, hsub])]
    refine Face.ext rfl rfl (funext fun other => by cases other <;> rfl) ?_
    show (node.catalogs.insert segment _).keys = _
    rw [Namespace.keys, Namespace.insert, Namespace.erase_of_get?_eq_none hsub, List.map_append]
    rfl

theorem face_registerAlong (segment : String) (rest : List String) (catalog : Catalog) :
    (catalog.registerAlong kind resource (segment :: rest)).face =
      catalog.face.register kind resource (segment :: rest) := by
  cases rest with
  | nil => exact face_store catalog segment
  | cons next rest => rw [registerAlong, face_enterOrCreate, face_store, Face.register]

/-! ## Along the segments and elsewhere -/

/-- The second tree is the first with a resource registered along the segments. -/
structure Registered (kind : ResourceKind) (resource : Resource kind) (segments : List String)
    (before after : Catalog) : Prop where
  along : ∀ count < segments.length, after.faceAt? (segments.take count) =
    some (((before.faceAt? (segments.take count)).getD (.made (segments.take count))).register kind
      resource (segments.drop count))
  elsewhere : SameElsewhere segments before after

-- What is below a node that is made is made as well.
theorem faceAt?_getD_newImplicit (segment : String) (path : List String) (catalog : Catalog) :
    (((catalog.subCatalog? segment).getD (newImplicit segment)).faceAt? path).getD (.made path) =
      (catalog.faceAt? (segment :: path)).getD (.made (segment :: path)) := by
  rw [faceAt?_cons]
  cases path with
  | nil => cases catalog.subCatalog? segment <;> rfl
  | cons next path =>
    cases catalog.subCatalog? segment with
    | none => rfl
    | some sub => simp only [Option.getD_some, Option.bind_some, Face.made, List.getLastD_cons]

theorem faceAt?_registerAlong_take {count : Nat} (hcount : count < segments.length)
    (catalog : Catalog) :
    (catalog.registerAlong kind resource segments).faceAt? (segments.take count) =
      some (((catalog.faceAt? (segments.take count)).getD (.made (segments.take count))).register
        kind resource (segments.drop count)) := by
  induction segments generalizing catalog count with
  | nil => cases hcount
  | cons segment rest ih =>
    cases count with
    | zero =>
      rw [List.take_zero, List.drop_zero, faceAt?_nil, faceAt?_nil, Option.getD_some,
        face_registerAlong]
    | succ count =>
      have hrest : count < rest.length := Nat.lt_of_succ_lt_succ hcount
      have hne : rest ≠ [] := List.ne_nil_of_length_pos (Nat.zero_lt_of_lt hrest)
      rw [List.take_succ_cons, List.drop_succ_cons, registerAlong_cons resource segment hne,
        faceAt?_cons, subCatalog?_enterOrCreate_self, Option.bind_some, ih hrest,
        faceAt?_getD_newImplicit, faceAt?_cons, faceAt?_cons, store, subCatalog?_withResources]

theorem sameElsewhere_registerAlong (kind : ResourceKind) (resource : Resource kind)
    (segments : List String) (catalog : Catalog) :
    SameElsewhere segments catalog (catalog.registerAlong kind resource segments) := by
  induction segments generalizing catalog with
  | nil => exact fun _ _ => rfl
  | cons segment rest ih =>
    by_cases hrest : rest = []
    · subst hrest
      exact sameElsewhere_singleton segment fun name => subCatalog?_withResources _ catalog _ name
    · rw [registerAlong_cons resource segment hrest]
      refine sameElsewhere_cons hrest (fun path hpath hoff => ?_) fun other path hother => ?_
      · rw [faceAt?_cons, faceAt?_cons, subCatalog?_enterOrCreate_self, Option.bind_some,
          ih _ path hoff, store, subCatalog?_withResources]
        cases catalog.subCatalog? segment with
        | some sub => rfl
        | none => rw [Option.getD_none, faceAt?_newImplicit, if_neg hpath, Option.bind_none]
      · rw [faceAt?_cons, faceAt?_cons, subCatalog?_enterOrCreate_of_ne hother, store,
          subCatalog?_withResources]

theorem registered_registerAlong (kind : ResourceKind) (resource : Resource kind)
    (segments : List String) (catalog : Catalog) :
    Registered kind resource segments catalog (catalog.registerAlong kind resource segments) :=
  ⟨fun _ hcount => faceAt?_registerAlong_take hcount catalog,
    sameElsewhere_registerAlong kind resource segments catalog⟩

/-- There is only one way to register a resource. -/
theorem Registered.unique {before after other : Catalog} (hafter : after.Keyed)
    (hother : other.Keyed) (h : Registered kind resource segments before after)
    (h' : Registered kind resource segments before other) : after = other := by
  refine eq_of_sameElsewhere hafter hother h.elsewhere h'.elsewhere fun count hcount => ?_
  rw [h.along count hcount, h'.along count hcount]

/-! ## Creates -/

variable {nested : Bool} {mode : CreateMode} {name : String} {catalog : Catalog}

theorem after_of_create_eq_error {error : CatalogError}
    (h : catalog.create nested mode kind name resource = .error error) :
    catalog.after (nested, .create mode kind name resource) = catalog := by
  have hrun : Operation.run nested catalog (.create mode kind name resource) = .error error := by
    rw [Operation.run, h]
    rfl
  rw [after, hrun]

theorem create_eq_error_iff :
    (∃ error, catalog.create nested mode kind name resource = .error error) ↔
      (∃ segment ∈ Name.segments name, Text.isBlank segment = true) ∨
      (∃ error, resource.validate kind = .error error) ∨
      mode = .createDefault ∧ ∃ place ∈ Place.splits (Place.chain nested name),
        (catalog.occupant? kind resource place).isSome = true := by
  rw [← List.any_eq_true, ← List.findSome?_isSome_iff, create, Place.ofName_eq]
  cases (Name.segments name).any Text.isBlank with
  | true => simp [bind, Except.bind]
  | false =>
    cases resource.validate kind with
    | error error => simp [bind, Except.bind]
    | ok _ =>
      cases hfound : (Place.splits (Place.chain nested name)).findSome?
          (catalog.occupant? kind resource) <;>
        cases mode <;> simp [bind, Except.bind, hfound]

/-- **What a create does.**  It fails, and changes nothing, if and only if a segment of the name is
blank, the resource may not be stored, or the mode allows no resource to be there and some place holds
one.  If existing resources are kept, the first of them is the answer and nothing changes.  Otherwise
the resource is the answer and is registered along the segments of the name. -/
theorem create_effect (nested : Bool) (mode : CreateMode) (kind : ResourceKind) (name : String)
    (resource : Resource kind) (catalog : Catalog) :
    let segments := Place.chain nested name
    let existing := (Place.splits segments).findSome? (catalog.occupant? kind resource)
    ((∃ error, catalog.create nested mode kind name resource = .error error) ↔
      (∃ segment ∈ Name.segments name, Text.isBlank segment = true) ∨
      (∃ error, resource.validate kind = .error error) ∨
      mode = .createDefault ∧ ∃ place ∈ Place.splits segments,
        (catalog.occupant? kind resource place).isSome = true) ∧
    (∀ error, catalog.create nested mode kind name resource = .error error →
      catalog.after (nested, .create mode kind name resource) = catalog) ∧
    ∀ created stored, catalog.create nested mode kind name resource = .ok (created, stored) →
      if mode = .createIfNotExists ∧ existing.isSome = true then
        created = catalog ∧ existing = some stored
      else stored = resource ∧ Registered kind resource segments catalog created := by
  refine ⟨create_eq_error_iff, fun _ => after_of_create_eq_error, fun created stored hcreate => ?_⟩
  rcases create_eq_ok_iff.mp hcreate with ⟨places, hplaces, -, hcases⟩
  obtain rfl := Place.eq_splits_of_ofName hplaces
  rcases hcases with ⟨hmode, hfound, rfl⟩ | ⟨hfree, rfl, rfl⟩
  · rw [if_pos ⟨hmode, by rw [hfound]; rfl⟩]
    exact ⟨rfl, hfound⟩
  · rw [if_neg, foldl_register_splits]
    · exact ⟨rfl, registered_registerAlong kind resource _ catalog⟩
    · rintro ⟨hmode, hsome⟩
      rcases hfree with hnone | hreplace
      · rw [hnone] at hsome
        cases hsome
      · rw [hmode] at hreplace
        cases hreplace

/-- A name of which one sub-catalog is there already, in another case, and one is not. -/
theorem create_effect_below_explicit :
    let catalog := (new "root").ensureSubCatalog "a"
    ∃ created stored, catalog.create true .createIfNotExists .table "A.b.c" (Table.named "c" []) =
        .ok (created, stored) ∧
      stored = Table.named "c" [] ∧
      Registered .table (Table.named "c" []) (Place.chain true "A.b.c") catalog created := by
  intro catalog
  have hfree : ((Place.splits (Place.chain true "A.b.c")).findSome?
      (catalog.occupant? .table (Table.named "c" []))).isSome = false := by decide +kernel
  have hok : (catalog.create true .createIfNotExists .table "A.b.c" (Table.named "c" [])).isOk =
      true := by decide +kernel
  cases hcreate : catalog.create true .createIfNotExists .table "A.b.c" (Table.named "c" []) with
  | error error =>
    rw [hcreate] at hok
    cases hok
  | ok result =>
    have heffect := (create_effect true .createIfNotExists .table "A.b.c" (Table.named "c" [])
      catalog).2.2 result.1 result.2 hcreate
    rw [if_neg (by simp [hfree])] at heffect
    exact ⟨result.1, result.2, rfl, heffect⟩

end Catalog

end SchemaCatalog
